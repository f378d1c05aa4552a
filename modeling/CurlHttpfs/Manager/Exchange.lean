import Mathlib.Data.Finset.Basic
import CurlHttpfs.Curl.Request
import CurlHttpfs.Lib.Transition

/-!
# The exchange of requests between clients and the background thread

Every client owns one easy handle and sends one request after another over
it. Requests travel through `pending_requests`, the hands of the background
thread, `ongoing_requests` and libcurl's message queue back to the promise the
client waits on. This module has the data both sides share and the steps each
side takes on it; when the background thread takes them is left to the event
loop.
-/

namespace CurlHttpfs.Manager

open Http Curl

/-- Name of a `CurlRequest`, standing for its address. -/
abbrev RequestId := ObjectId

/-- Codes returned by the multi interface. -/
abbrev CURLMcode := Nat

/-- Where a client stands in its use of its handle. -/
inductive ClientPc where
  /-- No call is going on; the last response has been returned. -/
  | idle
  /-- The `CurlRequest` exists and is being prepared. -/
  | built (r : RequestId)
  /-- `HandleRequest` has emplaced the request, the eventfd is not written yet. -/
  | enqueued (r : RequestId)
  /-- `HandleRequest` blocks in `resp_fut.get()`. -/
  | waiting (r : RequestId)
  /-- The assertion behind the eventfd write threw. -/
  | threw (r : RequestId)
  deriving DecidableEq

/-- The request a client is concerned with. -/
def ClientPc.request? : ClientPc → Option RequestId
  | .idle => none
  | .built r | .enqueued r | .waiting r | .threw r => some r

/-- A message of `curl_multi_info_read`. -/
inductive CURLMsg where
  /-- `CURLMSG_DONE` with its handle and result. -/
  | done (easyHandle : CURL) (result : CURLcode)
  /-- Any other message. -/
  | other
  deriving DecidableEq

/-- The handle a message is about. -/
def CURLMsg.handle? : CURLMsg → Option CURL
  | .done h _ => some h
  | .other => none

/-- The locals of `ProcessPendingRequests` and `CheckMulti` between their steps. -/
inductive Focus where
  /-- Nothing in hand. -/
  | idle
  /-- A request popped from the queue. -/
  | held (r : RequestId)
  /-- A request stored under its handle, about to be added. -/
  | adding (h : CURL) (r : RequestId)
  /-- A finished transfer whose promise is not set yet. -/
  | fulfilling (h : CURL) (r : RequestId) (res : CURLcode)
  /-- The promise is set, the handle is about to be removed. -/
  | removing (h : CURL)
  /-- The handle is removed, its entry is about to be erased. -/
  | erasing (h : CURL)
  deriving DecidableEq

variable [HeaderMap]

/-- Everything clients, background thread and libcurl share. -/
structure Exchange where
  /-- The client of each handle. -/
  client : CURL → ClientPc
  /-- Next unused request name. -/
  nextRequest : RequestId
  /-- The `CurlRequest` objects. -/
  request : RequestId → CurlRequest
  /-- The options of each easy handle. -/
  easy : CURL → Easy
  /-- `pending_requests`. -/
  pendingRequests : List RequestId
  /-- `ongoing_requests`. -/
  ongoingRequests : CURL → Option RequestId
  /-- Handles attached to the multi handle. -/
  attached : Finset CURL
  /-- Attached handles whose transfer is not done. -/
  running : Finset CURL
  /-- Unread messages. -/
  msgs : List CURLMsg
  /-- Locals of the background thread. -/
  focus : Focus

/-- Nothing has been sent yet; the handles have whatever options `Initialize` gave them. -/
def Exchange.init (easy : CURL → Easy) : Exchange where
  client _ := .idle
  nextRequest := 0
  request _ := CurlRequest.create 0
  easy := easy
  pendingRequests := []
  ongoingRequests _ := none
  attached := ∅
  running := ∅
  msgs := []
  focus := .idle

/-- The `CurlRequest` a callback of the handle writes to. -/
def callbackTarget (easy : Easy) : TransferEvent → Option RequestId
  | .header _ =>
    match easy.headerFunction, easy.headerData with
    | some .writeHeader, some (.curlRequest r) => some r
    | _, _ => none
  | .body _ =>
    match easy.writeFunction, easy.writeData with
    | some .writeBody, some (.curlRequest r) => some r
    | _, _ => none

/-- Options that neither move a callback nor the private data. -/
structure SameRoute (easy easy' : Easy) : Prop where
  headerFunction : easy'.headerFunction = easy.headerFunction
  headerData : easy'.headerData = easy.headerData
  writeFunction : easy'.writeFunction = easy.writeFunction
  writeData : easy'.writeData = easy.writeData
  privateData : easy'.privateData = easy.privateData

/-! ## Effects -/

/-- Replace the `RequestInfo` of a request. -/
def Exchange.setInfo (s : Exchange) (r : RequestId) (info : RequestInfo) : Exchange :=
  { s with request := Function.update s.request r { s.request r with info := info } }

/-- `response.set_value`. -/
def Exchange.setResponse (s : Exchange) (r : RequestId) (resp : HTTPResponse) : Exchange :=
  { s with request := Function.update s.request r { s.request r with response := some resp } }

/-- The constructor of `CurlRequest` on the client's handle. -/
def Exchange.build (s : Exchange) (h : CURL) : Exchange :=
  { s with
    client := Function.update s.client h (.built s.nextRequest)
    nextRequest := s.nextRequest + 1
    request := Function.update s.request s.nextRequest (CurlRequest.create h)
    easy := Function.update s.easy h (CurlRequest.install s.nextRequest (s.easy h)) }

/-- `SetUrl`. -/
def Exchange.setUrl (s : Exchange) (h : CURL) (r : RequestId) (url : Str) : Exchange :=
  { s.setInfo r ((s.request r).setUrl url).info with
    easy := Function.update s.easy h (CurlRequest.setUrlOption url (s.easy h)) }

/-- `pending_requests.emplace`. -/
def Exchange.enqueue (s : Exchange) (h : CURL) (r : RequestId) : Exchange :=
  { s with
    client := Function.update s.client h (.enqueued r)
    pendingRequests := s.pendingRequests ++ [r] }

/-- The transfer of a handle is done: libcurl queues its message. -/
def Exchange.finish (s : Exchange) (h : CURL) (res : CURLcode) : Exchange :=
  { s with running := s.running.erase h, msgs := s.msgs ++ [.done h res] }

/-- `CheckMulti` has read a message, the request behind it and the status code. -/
def Exchange.infoRead (s : Exchange) (h : CURL) (r : RequestId) (res : CURLcode) (code : Nat)
    (rest : List CURLMsg) : Exchange :=
  { s.setInfo r { (s.request r).info with responseCode := UInt16.ofNat code } with
    msgs := rest
    focus := .fulfilling h r res }

/-- `CheckMulti` builds the response and sets the promise. -/
def Exchange.setValue (lib : Library) (s : Exchange) (h : CURL) (r : RequestId) (res : CURLcode) :
    Exchange :=
  { s.setResponse r (checkMultiResponse lib (s.request r).info res) with focus := .removing h }

/-- `curl_multi_remove_handle`, which also drops unread messages of the handle. -/
def Exchange.removeHandle (s : Exchange) (h : CURL) : Exchange :=
  { s with
    attached := s.attached.erase h
    running := s.running.erase h
    msgs := s.msgs.filter fun msg => msg.handle? ≠ some h
    focus := .erasing h }

/-- `ongoing_requests.erase`. -/
def Exchange.erase (s : Exchange) (h : CURL) : Exchange :=
  { s with ongoingRequests := Function.update s.ongoingRequests h none, focus := .idle }

/-- `ProcessPendingRequests` takes the oldest request. -/
def Exchange.pop (s : Exchange) (r : RequestId) (rest : List RequestId) : Exchange :=
  { s with pendingRequests := rest, focus := .held r }

/-- The popped request is stored under its handle and becomes its private data. -/
def Exchange.insert (s : Exchange) (h : CURL) (r : RequestId) : Exchange :=
  { s with
    ongoingRequests := Function.update s.ongoingRequests h (some r)
    easy := Function.update s.easy h { s.easy h with privateData := some r }
    focus := .adding h r }

/-- `curl_multi_add_handle` succeeds. -/
def Exchange.attach (s : Exchange) (h : CURL) : Exchange :=
  { s with attached := Insert.insert h s.attached, running := Insert.insert h s.running, focus := .idle }

/-! ## Steps -/

namespace Exchange

/-- The label of a step. It fixes every choice of clients and libcurl. -/
inductive Action where
  /-- A client constructs its next request. -/
  | build (h : CURL)
  /-- A client sets the URL of its request. -/
  | setUrl (h : CURL) (url : Str)
  /-- A client writes other options of its handle. -/
  | configure (h : CURL)
  /-- A client emplaces its request. -/
  | enqueue (h : CURL) (r : RequestId)
  /-- A client's write to the eventfd succeeds or fails. -/
  | signal (h : CURL) (ok : Bool)
  /-- A client's future is ready. -/
  | receive (h : CURL) (r : RequestId)
  /-- libcurl makes a callback. -/
  | callback (h : CURL) (event : TransferEvent)
  /-- libcurl finishes a transfer. -/
  | finish (h : CURL) (res : CURLcode)
  /-- libcurl queues a message of another kind. -/
  | notice
  /-- `CheckMulti` skips a message of another kind. -/
  | infoSkip
  /-- `CheckMulti` reads the message of a transfer and its status code. -/
  | infoRead (h : CURL) (code : Nat)
  /-- `CheckMulti` sets the promise. -/
  | setValue (r : RequestId)
  /-- `CheckMulti` removes the handle. -/
  | removeHandle (h : CURL)
  /-- `CheckMulti` erases the entry. -/
  | erase (h : CURL)
  /-- `ProcessPendingRequests` takes a request. -/
  | pop (r : RequestId)
  /-- `ProcessPendingRequests` stores it. -/
  | insert (h : CURL) (r : RequestId)
  /-- `curl_multi_add_handle` returns, with zero for success. -/
  | addHandle (h : CURL) (r : RequestId) (code : CURLMcode)

/-- The steps of clients, libcurl and background thread. -/
inductive Step (lib : Library) : Exchange → Action → Exchange → Prop
  | build {s : Exchange} {h : CURL} (hidle : s.client h = .idle) : Step lib s (.build h) (s.build h)
  | setUrl {s : Exchange} {h : CURL} {r : RequestId} (url : Str) (hbuilt : s.client h = .built r) :
      Step lib s (.setUrl h url) (s.setUrl h r url)
  | configure {s : Exchange} {h : CURL} {easy : Easy}
      (hpc : s.client h = .idle ∨ ∃ r, s.client h = .built r) (hroute : SameRoute (s.easy h) easy) :
      Step lib s (.configure h) { s with easy := Function.update s.easy h easy }
  | enqueue {s : Exchange} {h : CURL} {r : RequestId} (hbuilt : s.client h = .built r) :
      Step lib s (.enqueue h r) (s.enqueue h r)
  | signal {s : Exchange} {h : CURL} {r : RequestId} (ok : Bool) (henqueued : s.client h = .enqueued r) :
      Step lib s (.signal h ok)
        { s with client := Function.update s.client h (if ok = true then .waiting r else .threw r) }
  | receive {s : Exchange} {h : CURL} {r : RequestId} (hwaiting : s.client h = .waiting r)
      (hset : (s.request r).response.isSome = true) :
      Step lib s (.receive h r) { s with client := Function.update s.client h .idle }
  | callback {s : Exchange} {h : CURL} {event : TransferEvent} {r : RequestId} {info : RequestInfo}
      (hrunning : h ∈ s.running) (htarget : callbackTarget (s.easy h) event = some r)
      (hreceive : receiveRequest (s.request r).info event = .ok info) :
      Step lib s (.callback h event) (s.setInfo r info)
  | finish {s : Exchange} {h : CURL} (res : CURLcode) (hrunning : h ∈ s.running) :
      Step lib s (.finish h res) (s.finish h res)
  | notice {s : Exchange} : Step lib s .notice { s with msgs := s.msgs ++ [.other] }
  | infoSkip {s : Exchange} {rest : List CURLMsg} (hfocus : s.focus = .idle)
      (hmsgs : s.msgs = .other :: rest) : Step lib s .infoSkip { s with msgs := rest }
  | infoRead {s : Exchange} {h : CURL} {r : RequestId} {res : CURLcode} {rest : List CURLMsg} (code : Nat)
      (hfocus : s.focus = .idle) (hmsgs : s.msgs = .done h res :: rest)
      (hprivate : (s.easy h).privateData = some r) :
      Step lib s (.infoRead h code) (s.infoRead h r res code rest)
  | setValue {s : Exchange} {h : CURL} {r : RequestId} {res : CURLcode}
      (hfocus : s.focus = .fulfilling h r res) (hunset : (s.request r).response = none) :
      Step lib s (.setValue r) (s.setValue lib h r res)
  | removeHandle {s : Exchange} {h : CURL} (hfocus : s.focus = .removing h) :
      Step lib s (.removeHandle h) (s.removeHandle h)
  | erase {s : Exchange} {h : CURL} {r : RequestId} (hfocus : s.focus = .erasing h)
      (hfound : s.ongoingRequests h = some r) : Step lib s (.erase h) (s.erase h)
  | pop {s : Exchange} {r : RequestId} {rest : List RequestId} (hfocus : s.focus = .idle)
      (hpending : s.pendingRequests = r :: rest) : Step lib s (.pop r) (s.pop r rest)
  | insert {s : Exchange} {h : CURL} {r : RequestId} (hfocus : s.focus = .held r)
      (hhandle : (s.request r).easyCurl = h) (habsent : s.ongoingRequests h = none) :
      Step lib s (.insert h r) (s.insert h r)
  | attach {s : Exchange} {h : CURL} {r : RequestId} (hfocus : s.focus = .adding h r)
      (hdetached : h ∉ s.attached) : Step lib s (.addHandle h r 0) (s.attach h)
  | attachFailed {s : Exchange} {h : CURL} {r : RequestId} {code : CURLMcode}
      (hfocus : s.focus = .adding h r) (hcode : code ≠ 0) :
      Step lib s (.addHandle h r code) { s with focus := .idle }

end Exchange

end CurlHttpfs.Manager
