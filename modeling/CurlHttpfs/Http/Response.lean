import CurlHttpfs.Http.Headers

/-!
# From a finished transfer to a response

Two response builders exist. `CheckMulti` answers queued requests from the
event loop, `TransformResponseCurl` answers blocking requests from the
client's own `RequestInfo`. Status texts and error texts come from outside
the repository and stay parameters.
-/

namespace CurlHttpfs.Http

/-- DuckDB's status enumeration, a 16-bit code. -/
abbrev HTTPStatusCode := UInt16

/-- libcurl result codes. -/
abbrev CURLcode := Nat

/-- `CURLE_OK`. -/
def curleOk : CURLcode := 0

/-- The texts and conversions taken from DuckDB and libcurl. -/
structure Library where
  /-- `HTTPUtil::ToStatusCode`. -/
  toStatusCode : UInt16 → HTTPStatusCode
  /-- `HTTPUtil::GetStatusMessage`. -/
  getStatusMessage : HTTPStatusCode → Str
  /-- `curl_easy_strerror`. -/
  easyStrerror : CURLcode → Str

/-- A library on the codes a first example needs. -/
def Library.common : Library where
  toStatusCode code := code
  getStatusMessage status := if status = 200 then "OK".toList else "Unknown".toList
  easyStrerror res := if res = 7 then "Could not connect to server".toList else "Unknown error".toList

variable [HeaderMap]

/-- `HTTPResponse`, the answer handed to the caller. -/
structure HTTPResponse where
  /-- Converted status code. -/
  status : HTTPStatusCode
  /-- Request URL. -/
  url : Str := []
  /-- Received body. -/
  body : Str := []
  /-- Error text, empty when the request succeeded. -/
  requestError : Str := []
  /-- Status text. -/
  reason : Str := []
  /-- Headers of the last block. -/
  headers : HTTPHeaders := HeaderMap.empty

/-- Error text of a failed transfer: the last status line if one was stored,
the library's text otherwise. Both builders choose it the same way. -/
def requestErrorText (lib : Library) (collection : List HTTPHeaders) (res : CURLcode) : Str :=
  match collection.getLast? with
  | none => lib.easyStrerror res
  | some back =>
    if h : HeaderMap.hasHeader back responseStatusKey = true then
      HeaderMap.getHeaderValue back responseStatusKey h
    else lib.easyStrerror res

/-- The header loop of `CheckMulti`, which skips the internal status entry. -/
def checkMultiHeaders (collection : List HTTPHeaders) : HTTPHeaders :=
  match collection.getLast? with
  | none => HeaderMap.empty
  | some back =>
    HeaderMap.insertAll HeaderMap.empty
      ((HeaderMap.entries back).filter fun e => e.1 ≠ responseStatusKey)

/-- The response `CheckMulti` builds once `response_code` has been stored.
The body is moved out of the request, which is not read again. -/
def checkMultiResponse (lib : Library) (info : RequestInfo) (res : CURLcode) : HTTPResponse :=
  let statusCode := lib.toStatusCode info.responseCode
  let resp : HTTPResponse :=
    { status := statusCode, url := info.url, reason := lib.getStatusMessage statusCode }
  if res ≠ curleOk then
    { resp with requestError := requestErrorText lib info.headerCollection res }
  else
    { resp with body := info.body, headers := checkMultiHeaders info.headerCollection }

/-- `ResetRequestInfo`. -/
def resetRequestInfo (_ : RequestInfo) : RequestInfo :=
  { url := [], body := [], responseCode := 0, headerCollection := [] }

/-- The header loop of `TransformResponseCurl`, which copies every entry. -/
def transformHeaders (collection : List HTTPHeaders) : HTTPHeaders :=
  match collection.getLast? with
  | none => HeaderMap.empty
  | some back => HeaderMap.insertAll HeaderMap.empty (HeaderMap.entries back)

/-- `TransformResponseCurl`: the response and what it leaves in
`request_info`. The failure branch returns before the reset. -/
def transformResponseCurl (lib : Library) (info : RequestInfo) (res : CURLcode) :
    HTTPResponse × RequestInfo :=
  let response : HTTPResponse := { status := info.responseCode }
  if res ≠ curleOk then
    ({ response with requestError := requestErrorText lib info.headerCollection res }, info)
  else
    ({ response with
        body := info.body, url := info.url, headers := transformHeaders info.headerCollection },
      resetRequestInfo info)

/-- A successful transfer leaves `request_info` empty. -/
theorem transformResponseCurl_ok (lib : Library) (info : RequestInfo) :
    (transformResponseCurl lib info curleOk).2 = {} := rfl

/-- A failed transfer leaves `request_info` as it was. -/
theorem transformResponseCurl_failed {lib : Library} {info : RequestInfo} {res : CURLcode}
    (h : res ≠ curleOk) : (transformResponseCurl lib info res).2 = info := by
  simp only [transformResponseCurl, if_pos h]

end CurlHttpfs.Http
