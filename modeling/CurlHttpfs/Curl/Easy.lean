import CurlHttpfs.Http.Headers

/-!
# Easy handles and their sticky options

An easy handle keeps every option until it is set again. Method and payload
come from five options that act on each other; setting one may move libcurl's
own idea of the method. A transfer reads the options as they stand when it
starts and resets none of them.
-/

namespace CurlHttpfs.Curl

open Http

/-- Name of a heap-allocated object of one call: its `CurlRequest` or its header list. -/
abbrev ObjectId := Nat

/-- Functions installed as `CURLOPT_HEADERFUNCTION`. -/
inductive HeaderFunction where
  /-- `CurlRequest::WriteHeader`. -/
  | writeHeader
  /-- `RequestHeaderCallback`. -/
  | requestHeaderCallback
  deriving DecidableEq

/-- Functions installed as `CURLOPT_WRITEFUNCTION`. -/
inductive WriteFunction where
  /-- `CurlRequest::WriteBody`. -/
  | writeBody
  /-- `RequestWriteCallback`. -/
  | requestWriteCallback
  deriving DecidableEq

/-- What `CURLOPT_HEADERDATA` and `CURLOPT_WRITEDATA` point to. -/
inductive DataPointer where
  /-- A `CurlRequest`, by its object name. -/
  | curlRequest (object : ObjectId)
  /-- `&request_info->header_collection` of the client. -/
  | headerCollection
  /-- `&request_info->body` of the client. -/
  | body
  deriving DecidableEq

/-- A nonempty `curl_slist` with the call that owns it. -/
structure SList where
  /-- The call whose `CURLRequestHeaders` frees the list. -/
  owner : ObjectId
  /-- The header lines. -/
  lines : List Str
  deriving DecidableEq

/-- The list pointer of a `CURLRequestHeaders`, null as long as nothing was added. -/
def SList.ofLines (owner : ObjectId) (lines : List Str) : Option SList :=
  if lines = [] then none else some ⟨owner, lines⟩

/-- libcurl's internal method, moved by several options. -/
inductive Method where
  | get
  | head
  | post
  deriving DecidableEq

/-- Options of the connection, set once by `Initialize`. -/
structure ConnectionOptions where
  /-- `CURLOPT_HTTP_VERSION` is `CURL_HTTP_VERSION_2_0`. -/
  http2 : Bool := false
  /-- `CURLOPT_FORBID_REUSE`. -/
  forbidReuse : Bool := false
  /-- `CURLOPT_SSL_VERIFYPEER`. -/
  sslVerifyPeer : Nat := 1
  /-- `CURLOPT_SSL_VERIFYHOST`. -/
  sslVerifyHost : Nat := 2
  /-- `CURLOPT_TIMEOUT`. -/
  timeout : Nat := 0
  /-- `CURLOPT_CONNECTTIMEOUT`. -/
  connectTimeout : Nat := 300
  /-- `CURLOPT_ACCEPT_ENCODING`. -/
  acceptEncoding : Option Str := none
  /-- `CURLOPT_PROXY`. -/
  proxy : Option Str := none
  /-- `CURLOPT_PROXYUSERNAME`. -/
  proxyUsername : Option Str := none
  /-- `CURLOPT_PROXYPASSWORD`. -/
  proxyPassword : Option Str := none
  /-- Bearer token given to the handle's constructor. -/
  bearerToken : Str := []
  /-- Certificate file given to the handle's constructor. -/
  certFile : Str := []

/-- The options of an easy handle that the program sets. -/
structure Easy where
  /-- `CURLOPT_HEADERFUNCTION`. -/
  headerFunction : Option HeaderFunction := none
  /-- `CURLOPT_HEADERDATA`. -/
  headerData : Option DataPointer := none
  /-- `CURLOPT_WRITEFUNCTION`. -/
  writeFunction : Option WriteFunction := none
  /-- `CURLOPT_WRITEDATA`. -/
  writeData : Option DataPointer := none
  /-- `CURLOPT_PRIVATE`. -/
  privateData : Option ObjectId := none
  /-- `CURLOPT_URL`. -/
  url : Str := []
  /-- `CURLOPT_FOLLOWLOCATION`. -/
  followLocation : Bool := false
  /-- `CURLOPT_HTTPHEADER`, kept by pointer. -/
  httpHeader : Option SList := none
  /-- `CURLOPT_CUSTOMREQUEST`. -/
  customRequest : Option Str := none
  /-- Method selected by the last option that moved it. -/
  method : Method := .get
  /-- `CURLOPT_NOBODY`. -/
  noBody : Bool := false
  /-- `CURLOPT_POSTFIELDS`, the bytes at the pointer. -/
  postFields : Option Str := none
  /-- `CURLOPT_POSTFIELDSIZE`, negative when unset. -/
  postFieldSize : Int := -1
  /-- Everything `Initialize` fixes about the connection. -/
  connection : ConnectionOptions := {}

/-- `curl_easy_setopt(CURLOPT_POST, 1L)`. -/
def Easy.setPost (easy : Easy) : Easy := { easy with method := .post, noBody := false }

/-- `curl_easy_setopt(CURLOPT_POSTFIELDS, ...)` with its size; also selects POST. -/
def Easy.setPostFields (easy : Easy) (fields : Str) : Easy :=
  { easy with postFields := some fields, method := .post, postFieldSize := fields.length }

/-- `curl_easy_setopt(CURLOPT_NOBODY, on)`. Switching it off turns HEAD back
into GET and leaves POST alone. -/
def Easy.setNoBody (easy : Easy) (on : Bool) : Easy :=
  if on = true then { easy with noBody := true, method := .head }
  else { easy with noBody := false, method := if easy.method = .head then .get else easy.method }

/-- `curl_easy_setopt(CURLOPT_HTTPGET, on)`; zero has no effect. -/
def Easy.setHttpGet (easy : Easy) (on : Bool) : Easy :=
  if on = true then { easy with method := .get, noBody := false } else easy

@[simp] theorem setPost_customRequest (easy : Easy) : easy.setPost.customRequest = easy.customRequest := rfl

@[simp] theorem setPost_noBody (easy : Easy) : easy.setPost.noBody = false := rfl

@[simp] theorem setPostFields_method (easy : Easy) (fields : Str) :
    (easy.setPostFields fields).method = .post := rfl

@[simp] theorem setPostFields_customRequest (easy : Easy) (fields : Str) :
    (easy.setPostFields fields).customRequest = easy.customRequest := rfl

@[simp] theorem setPostFields_noBody (easy : Easy) (fields : Str) :
    (easy.setPostFields fields).noBody = easy.noBody := rfl

/-- Switching the body on again neither selects POST nor leaves it. -/
theorem setNoBody_false_post (easy : Easy) :
    (easy.setNoBody false).method = .post ↔ easy.method = .post := by
  change (if easy.method = .head then Method.get else easy.method) = .post ↔ _
  cases easy.method <;> decide

/-- The part of a request on the wire that the method options decide. -/
structure WireRequest where
  /-- The verb sent. -/
  verb : Str
  /-- The request body, if one is attached. -/
  body : Option Str
  /-- Whether the response body is read. -/
  readsBody : Bool
  deriving DecidableEq

/-- The bytes `CURLOPT_POSTFIELDSIZE` cuts out of the post fields. -/
def Easy.payload (easy : Easy) : Option Str :=
  easy.postFields.map fun fields =>
    if easy.postFieldSize < 0 then fields else fields.take easy.postFieldSize.toNat

/-- The wire request of a transfer started now. A custom request replaces the
verb alone: post fields stay attached exactly while the method is POST, and
without a body to read the method is HEAD. -/
def Easy.wire (easy : Easy) : WireRequest where
  verb := easy.customRequest.getD
    (if easy.noBody = true then "HEAD".toList
      else if easy.method = .post then "POST".toList else "GET".toList)
  body := if easy.method = .post ∧ easy.noBody = false then easy.payload else none
  readsBody := !easy.noBody

/-- Post fields of their own size are sent whole. -/
@[simp] theorem setPostFields_payload (easy : Easy) (fields : Str) :
    (easy.setPostFields fields).payload = some fields := by
  have hsize : ¬(fields.length : Int) < 0 := by omega
  simp only [Easy.payload, Easy.setPostFields, Option.map_some, hsize, if_false, Int.toNat_natCast,
    List.take_length]

/-- The custom header lines of a transfer started now. -/
def Easy.sentHeaders (easy : Easy) : List Str := (easy.httpHeader.map SList.lines).getD []

end CurlHttpfs.Curl
