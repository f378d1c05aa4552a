import CurlHttpfs.Curl.Request

/-!
# `MultiCurlClient`

One client drives one easy handle with two transfer engines. `Get` and `Head`
queue a `CurlRequest` at the manager and wait; `Put`, `Post` and `Delete`
perform the transfer in place on the client's own `RequestInfo`. Each call is
split where its transfer starts: before it the call writes options, during it
libcurl drives whatever callbacks are installed, after it the response is
built.
-/

namespace CurlHttpfs.Client

open Http Curl

/-- Request counters shared with the database. -/
structure HTTPState where
  getCount : Nat := 0
  putCount : Nat := 0
  headCount : Nat := 0
  deleteCount : Nat := 0
  postCount : Nat := 0
  totalBytesReceived : Nat := 0
  totalBytesSent : Nat := 0
  deriving DecidableEq

/-- The parameters the client reads. -/
structure HTTPFSParams where
  /-- Bearer token, empty when unset. -/
  bearerToken : Str := []
  /-- Certificate file, empty to probe the usual places. -/
  caCertFile : Str := []
  /-- Whether connections may be reused. -/
  keepAlive : Bool := true
  /-- Whether server certificates are verified. -/
  enableCurlServerCertVerification : Bool := false
  /-- Timeout in seconds. -/
  timeout : Nat := 30
  /-- Proxy host, empty when unset. -/
  httpProxy : Str := []
  /-- Proxy port. -/
  httpProxyPort : Nat := 80
  /-- Proxy user, empty when unset. -/
  httpProxyUsername : Str := []
  /-- Proxy password. -/
  httpProxyPassword : Str := []
  /-- Whether the request headers already contain the extra headers. -/
  preMergedHeaders : Bool := false
  /-- Headers configured for every request. -/
  extraHeaders : List (Str × Str) := []
  /-- Counters to update, if any. -/
  state : Option HTTPState := none

variable [HeaderMap]

/-- An HTTP client with its handle. -/
structure MultiCurlClient where
  /-- The easy handle. -/
  curl : Easy
  /-- Counters, if any. -/
  state : Option HTTPState
  /-- Target of the blocking operations. -/
  requestInfo : RequestInfo
  /-- Next unused object name. -/
  nextObject : ObjectId

/-- The certificate files probed in order. -/
def certFileLocations : List Str :=
  ["/etc/ssl/certs/ca-certificates.crt".toList, "/etc/pki/ca-trust/extracted/pem/tls-ca-bundle.pem".toList,
    "/etc/pki/tls/certs/ca-bundle.crt".toList, "/etc/ssl/ca-bundle.pem".toList, "/etc/ssl/cert.pem".toList]

/-- `SelectCURLCertPath`: the first file that exists, else the empty path. -/
def selectCURLCertPath (fileExists : Str → Bool) : Str := (certFileLocations.find? fileExists).getD []

/-- `Initialize`: a new handle whose callbacks write the client's own `RequestInfo`. -/
def initClient (fileExists : Str → Bool) (params : HTTPFSParams) : MultiCurlClient where
  state := params.state
  requestInfo := {}
  nextObject := 0
  curl :=
    { headerFunction := some .requestHeaderCallback
      headerData := some .headerCollection
      writeFunction := some .requestWriteCallback
      writeData := some .body
      followLocation := true
      connection :=
        { http2 := true
          forbidReuse := !params.keepAlive
          sslVerifyPeer := if params.enableCurlServerCertVerification = true then 1 else 0
          sslVerifyHost := if params.enableCurlServerCertVerification = true then 2 else 0
          timeout := params.timeout
          connectTimeout := params.timeout
          acceptEncoding := some "identity".toList
          proxy := if params.httpProxy = [] then none
            else some (params.httpProxy ++ ":".toList ++ (toString params.httpProxyPort).toList)
          proxyUsername := if params.httpProxy = [] ∨ params.httpProxyUsername = [] then none
            else some params.httpProxyUsername
          proxyPassword := if params.httpProxy = [] ∨ params.httpProxyUsername = [] then none
            else some params.httpProxyPassword
          bearerToken := params.bearerToken
          certFile := if params.caCertFile = [] then selectCURLCertPath fileExists
            else params.caCertFile } }

/-! ## Requests -/

/-- What every request carries. -/
structure BaseRequest where
  /-- Request URL. -/
  url : Str
  /-- Header map of the request. -/
  headers : HTTPHeaders := HeaderMap.empty
  /-- Parameters in force for the request. -/
  params : HTTPFSParams := {}

/-- A request with a payload. -/
structure UploadRequest extends BaseRequest where
  /-- The bytes at `buffer_in`, `buffer_in_len` of them. -/
  bufferIn : Str

/-- A GET request with its handlers. -/
structure GetRequestInfo extends BaseRequest where
  /-- Called with the response; a false result ends the call. -/
  responseHandler : Option (HTTPResponse → Bool) := none
  /-- Called with the body; its result is ignored. -/
  contentHandler : Option (Str → Bool) := none

/-- A PUT request. -/
structure PutRequestInfo extends UploadRequest where
  /-- Value of the content type header. -/
  contentType : Str

/-- The five operations of a client. -/
inductive Operation where
  | get (info : GetRequestInfo)
  | head (info : BaseRequest)
  | put (info : PutRequestInfo)
  | delete (info : BaseRequest)
  | post (info : UploadRequest)

/-- The operation's name alone. -/
inductive Kind where
  | get
  | head
  | put
  | delete
  | post
  deriving DecidableEq

/-- Which operation it is. -/
def Operation.kind : Operation → Kind
  | .get _ => .get
  | .head _ => .head
  | .put _ => .put
  | .delete _ => .delete
  | .post _ => .post

/-- Whether the operation goes through the manager's event loop. -/
def Kind.queued : Kind → Bool
  | .get | .head => true
  | .put | .delete | .post => false

/-- One header line, `name: value`. -/
def headerLine (entry : Str × Str) : Str := entry.1 ++ ": ".toList ++ entry.2

/-- `TransformHeadersCurl`: the header map, then the extra headers unless
they were merged before. -/
def transformHeadersCurl (headerMap : HTTPHeaders) (params : HTTPFSParams) : List Str :=
  (HeaderMap.entries headerMap).map headerLine ++
    if params.preMergedHeaders = true then [] else params.extraHeaders.map headerLine

/-- The header list a call builds, with the content type line of its upload. -/
def Operation.headerLines : Operation → List Str
  | .get info => transformHeadersCurl info.headers info.params
  | .head info => transformHeadersCurl info.headers info.params
  | .put info =>
    transformHeadersCurl info.headers info.params ++ ["Content-Type: ".toList ++ info.contentType]
  | .delete info => transformHeadersCurl info.headers info.params
  | .post info =>
    transformHeadersCurl info.headers info.params ++ ["Content-Type: application/octet-stream".toList]

/-! ## Up to the start of the transfer -/

/-- A call whose transfer is about to start. -/
structure Started where
  /-- The client with the options as the transfer finds them. -/
  client : MultiCurlClient
  /-- Name of the objects this call allocated. -/
  object : ObjectId
  /-- The live `CurlRequest` of a queued call. -/
  request : Option CurlRequest

/-- Update the counters when there are any. -/
def MultiCurlClient.count (client : MultiCurlClient) (update : HTTPState → HTTPState) : MultiCurlClient :=
  { client with state := client.state.map update }

/-- The common part of `Get` and `Head`: construct a request on the handle,
set its URL, its headers and the method attributes. -/
def startQueued (client : MultiCurlClient) (url : Str) (lines : List Str) (attrs : Easy → Easy) : Started :=
  let object := client.nextObject
  let easy := CurlRequest.install object client.curl
  let easy := CurlRequest.setUrlOption url easy
  let easy := CurlRequest.setHeaders (SList.ofLines object lines) easy
  let easy := attrs easy
  { client := { client with curl := easy, nextObject := object + 1 }
    object := object
    request := some ((CurlRequest.create 0).setUrl url) }

/-- The common part of `Put`, `Delete` and `Post`: store the URL, set the
method options, install the call's own header list or null. -/
def startBlocking (client : MultiCurlClient) (url : Str) (lines : List Str) (options : Easy → Easy) : Started :=
  let object := client.nextObject
  let easy := { options { client.curl with url := url } with httpHeader := SList.ofLines object lines }
  { client :=
      { client with
        requestInfo := { client.requestInfo with url := url }
        curl := easy
        nextObject := object + 1 }
    object := object
    request := none }

/-- `Get` until `HandleRequest` hands the request to libcurl. -/
def startGet (client : MultiCurlClient) (info : GetRequestInfo) : Started :=
  startQueued (client.count fun s => { s with getCount := s.getCount + 1 }) info.url
    (transformHeadersCurl info.headers info.params) CurlRequest.setGetAttrs

/-- `Head` until `HandleRequest` hands the request to libcurl. -/
def startHead (client : MultiCurlClient) (info : BaseRequest) : Started :=
  startQueued (client.count fun s => { s with headCount := s.headCount + 1 }) info.url
    (transformHeadersCurl info.headers info.params) CurlRequest.setHeadAttrs

/-- `Put` until `Execute`. -/
def startPut (client : MultiCurlClient) (info : PutRequestInfo) : Started :=
  startBlocking
    (client.count fun s =>
      { s with putCount := s.putCount + 1, totalBytesSent := s.totalBytesSent + info.bufferIn.length })
    info.url
    (transformHeadersCurl info.headers info.params ++ ["Content-Type: ".toList ++ info.contentType])
    fun easy => { easy with customRequest := some "PUT".toList }.setPostFields info.bufferIn

/-- `Delete` until `Execute`. -/
def startDelete (client : MultiCurlClient) (info : BaseRequest) : Started :=
  startBlocking (client.count fun s => { s with deleteCount := s.deleteCount + 1 }) info.url
    (transformHeadersCurl info.headers info.params)
    fun easy => { easy with customRequest := some "DELETE".toList, followLocation := true }

/-- `Post` until `Execute`. -/
def startPost (client : MultiCurlClient) (info : UploadRequest) : Started :=
  startBlocking
    (client.count fun s =>
      { s with postCount := s.postCount + 1, totalBytesSent := s.totalBytesSent + info.bufferIn.length })
    info.url
    (transformHeadersCurl info.headers info.params ++ ["Content-Type: application/octet-stream".toList])
    fun easy => easy.setPost.setPostFields info.bufferIn

/-- A call until its transfer starts. -/
def start (client : MultiCurlClient) : Operation → Started
  | .get info => startGet client info
  | .head info => startHead client info
  | .put info => startPut client info
  | .delete info => startDelete client info
  | .post info => startPost client info

/-! ## The transfer -/

/-- What happens to a transfer: the callbacks in order, the status code and
the result code. -/
structure Outcome where
  /-- The callbacks in order. -/
  events : List TransferEvent
  /-- `CURLINFO_RESPONSE_CODE` afterwards. -/
  responseCode : Nat
  /-- The result of the transfer. -/
  result : CURLcode

/-- The objects callbacks can reach: the live `CurlRequest`, if any, and the
client's `RequestInfo`. -/
structure Memory where
  /-- The one queued request that has not been destroyed. -/
  request : Option (ObjectId × RequestInfo)
  /-- The client's own object. -/
  requestInfo : RequestInfo

/-- Run a callback on the `CurlRequest` of a pointer. Every request but the
one of the running call has been erased by the manager. -/
def Memory.onRequest (memory : Memory) (object : ObjectId)
    (callback : RequestInfo → Except Fault (Nat × RequestInfo)) : Except Fault Memory :=
  match memory.request with
  | none => .error .useAfterFree
  | some (live, info) =>
    if live = object then
      (callback info).map fun written => { memory with request := some (live, written.2) }
    else .error .useAfterFree

/-- One callback, through the function and the data pointer installed. -/
def deliver (easy : Easy) (memory : Memory) : TransferEvent → Except Fault Memory
  | .header d =>
    match easy.headerFunction, easy.headerData with
    | some .writeHeader, some (.curlRequest object) => memory.onRequest object (writeHeader d)
    | some .requestHeaderCallback, some .headerCollection =>
      (requestHeaderCallback d memory.requestInfo.headerCollection).map fun written =>
        { memory with requestInfo := { memory.requestInfo with headerCollection := written.2 } }
    | _, _ => .error .badPointer
  | .body d =>
    match easy.writeFunction, easy.writeData with
    | some .writeBody, some (.curlRequest object) => memory.onRequest object (writeBody d)
    | some .requestWriteCallback, some .body =>
      (requestWriteCallback d memory.requestInfo.body).map fun written =>
        { memory with requestInfo := { memory.requestInfo with body := written.2 } }
    | _, _ => .error .badPointer

/-- All callbacks of a transfer. -/
def transfer (easy : Easy) (memory : Memory) (events : List TransferEvent) : Except Fault Memory :=
  events.foldlM (deliver easy) memory

/-! ## Behind the transfer -/

/-- What a call gives its caller. -/
structure Answer where
  /-- The response. -/
  response : HTTPResponse
  /-- `buffer_out` of a POST. -/
  bufferOut : Option Str := none
  /-- Bodies passed to the content handler. -/
  contents : List Str := []

/-- The end of `Get`: count the body and run the handlers. -/
def finishGet (client : MultiCurlClient) (info : GetRequestInfo) (response : HTTPResponse) :
    MultiCurlClient × Answer :=
  let client := client.count fun s =>
    { s with totalBytesReceived := s.totalBytesReceived + response.body.length }
  if info.responseHandler.all (fun handler => handler response) = true ∧
      info.contentHandler.isSome = true then
    (client, { response := response, contents := [response.body] })
  else (client, { response := response })

/-- The end of a blocking call. `Post` copies the body out before the
response is built. -/
def finishBlocking (lib : Library) (client : MultiCurlClient) (copiesOut : Bool) (outcome : Outcome) :
    MultiCurlClient × Answer :=
  let info := { client.requestInfo with responseCode := UInt16.ofNat outcome.responseCode }
  let (response, left) := transformResponseCurl lib info outcome.result
  ({ client with requestInfo := left },
    { response := response, bufferOut := if copiesOut = true then some info.body else none })

/-- A whole transfer and the end of its call. The manager answers a queued
call from the `CurlRequest` it was given and destroys it. -/
def complete (lib : Library) (started : Started) (op : Operation) (outcome : Outcome) :
    Except Fault (MultiCurlClient × Answer) := do
  let memory ← transfer started.client.curl
    ⟨started.request.map fun request => (started.object, request.info), started.client.requestInfo⟩
    outcome.events
  let client := { started.client with requestInfo := memory.requestInfo }
  let queuedResponse := match memory.request with
    | none => checkMultiResponse lib {} outcome.result
    | some (_, info) =>
      checkMultiResponse lib { info with responseCode := UInt16.ofNat outcome.responseCode } outcome.result
  match op with
  | .get info => .ok (finishGet client info queuedResponse)
  | .head _ => .ok (client, { response := queuedResponse })
  | .put _ | .delete _ => .ok (finishBlocking lib client false outcome)
  | .post _ => .ok (finishBlocking lib client true outcome)

/-! ## Sequences of calls -/

/-- A call with what will happen to its transfer. -/
structure Call where
  /-- The operation. -/
  op : Operation
  /-- The fate of its transfer. -/
  outcome : Outcome

/-- One started call and how it ended. -/
structure Record where
  /-- The call. -/
  call : Call
  /-- The client as the transfer found it. -/
  started : Started
  /-- The answer, or the fault that ended the sequence. -/
  result : Except Fault Answer

/-- The started calls of a sequence. A fault ends the sequence: an exception
thrown through libcurl or a write into freed memory has no defined sequel. -/
def run (lib : Library) (client : MultiCurlClient) : List Call → List Record
  | [] => []
  | call :: calls =>
    let started := start client call.op
    match complete lib started call.op call.outcome with
    | .error fault => [⟨call, started, .error fault⟩]
    | .ok (client, answer) => ⟨call, started, .ok answer⟩ :: run lib client calls

end CurlHttpfs.Client
