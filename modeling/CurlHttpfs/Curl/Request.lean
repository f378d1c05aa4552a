import CurlHttpfs.Curl.Easy
import CurlHttpfs.Http.Response

/-!
# `CurlRequest`

A queued request owns a `RequestInfo` and a promise and borrows its client's
easy handle. Its constructor points the handle's callbacks and its private
data at the new object; the setters write further options of the same handle.
-/

namespace CurlHttpfs.Curl

open Http

/-- Name of an easy handle. Each client owns one. -/
abbrev CURL := Nat

/-! ## Effects on the handle -/

namespace CurlRequest

/-- The constructor's effect on the handle: both callbacks and the private
data denote the new object. -/
def install (object : ObjectId) (easy : Easy) : Easy :=
  { easy with
    headerFunction := some .writeHeader
    headerData := some (.curlRequest object)
    writeFunction := some .writeBody
    writeData := some (.curlRequest object)
    privateData := some object }

/-- `SetUrl` on the handle. -/
def setUrlOption (url : Str) (easy : Easy) : Easy := { easy with url := url }

/-- `SetHeaders`. A null list leaves the option as it is. -/
def setHeaders (headers : Option SList) (easy : Easy) : Easy :=
  match headers with
  | none => easy
  | some list => { easy with httpHeader := some list }

/-- What `SetHeaders` leaves installed: the given list, or else the old one. -/
theorem setHeaders_eq (headers : Option SList) (easy : Easy) :
    setHeaders headers easy = { easy with httpHeader := headers.or easy.httpHeader } := by
  cases headers <;> rfl

/-- `SetGetAttrs`. -/
def setGetAttrs (easy : Easy) : Easy := easy.setNoBody false

/-- `SetHeadAttrs`. -/
def setHeadAttrs (easy : Easy) : Easy := (easy.setNoBody true).setHttpGet false

end CurlRequest

/-! ## The request -/

variable [HeaderMap]

/-- A queued request. -/
structure CurlRequest where
  /-- What the callbacks write and the response is built from. -/
  info : RequestInfo
  /-- The promise, empty until it is set. -/
  response : Option HTTPResponse
  /-- The borrowed easy handle. -/
  easyCurl : CURL

/-- The fields of a new request. -/
def CurlRequest.create (easyCurl : CURL) : CurlRequest := ⟨{}, none, easyCurl⟩

/-- `SetUrl` on the request. -/
def CurlRequest.setUrl (request : CurlRequest) (url : Str) : CurlRequest :=
  { request with info := { request.info with url := url } }

/-- One callback of a queued call, on the request it fills. -/
def receiveRequest (info : RequestInfo) : TransferEvent → Except Fault RequestInfo
  | .header d => (writeHeader d info).map Prod.snd
  | .body d => (writeBody d info).map Prod.snd

/-- A request's own callback never touches freed memory. -/
theorem receiveRequest_fault {info : RequestInfo} {event : TransferEvent} {fault : Fault}
    (h : receiveRequest info event = .error fault) : fault = .outOfRange ∨ fault = .emptyBack := by
  cases event with
  | header d =>
    simp only [receiveRequest, writeHeader, Delivery.take_total] at h
    cases hc : collectHeader info.headerCollection d.contents with
    | error f =>
      rw [hc] at h
      have he : (Except.error f : Except Fault RequestInfo) = .error fault := h
      exact Except.error.inj he ▸ collectHeader_fault hc
    | ok c =>
      rw [hc] at h
      cases h
  | body d => cases h

end CurlHttpfs.Curl
