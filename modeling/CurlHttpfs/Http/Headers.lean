import CurlHttpfs.Http.HeaderMap
import CurlHttpfs.Lib.Text

/-!
# Header collection and the libcurl write callbacks

libcurl hands every header line and every body chunk of a transfer to a C
callback. Two pairs of callbacks exist: those of a queued `CurlRequest` and
those of a client's own `RequestInfo`. Both header callbacks are the same
line decoder, kept here once; what differs is the object they write into.
-/

namespace CurlHttpfs.Http

/-- Name under which the status line of a header block is stored. -/
def responseStatusKey : Str := "__RESPONSE_STATUS__".toList

/-- Ways in which a callback fails to return. -/
inductive Fault where
  /-- `std::out_of_range` from `part2.at(0)` on an empty value. -/
  | outOfRange
  /-- `back()` of an empty `header_collection`, undefined behaviour. -/
  | emptyBack
  /-- The data pointer denotes an object that was already destroyed. -/
  | useAfterFree
  /-- No callback is installed or its data pointer has another type. -/
  | badPointer
  deriving DecidableEq

/-- One callback invocation: `size * nmemb` bytes at `contents`. -/
structure Delivery where
  /-- The bytes at the `contents` pointer. -/
  contents : Str
  /-- First factor of the byte count. -/
  size : Nat
  /-- Second factor of the byte count. -/
  nmemb : Nat
  /-- libcurl passes a buffer of exactly that many bytes. -/
  filled : contents.length = size * nmemb

/-- One line delivered the way libcurl does it, with element size one. -/
def Delivery.ofLine (line : Str) : Delivery := ⟨line, 1, line.length, (Nat.one_mul _).symm⟩

/-- One callback libcurl makes during a transfer. -/
inductive TransferEvent where
  /-- A header line. -/
  | header (d : Delivery)
  /-- A body chunk. -/
  | body (d : Delivery)

/-- The callbacks read the whole buffer. -/
@[simp] theorem Delivery.take_total (d : Delivery) : d.contents.take (d.size * d.nmemb) = d.contents := by
  rw [← d.filled, List.take_length]

/-- Drop one trailing LF and then one trailing CR. A CR is only looked for
behind an LF. -/
def trimLineEnd (header : Str) : Str :=
  if header.getLast? = some '\n' then
    if header.dropLast.getLast? = some '\r' then header.dropLast.dropLast else header.dropLast
  else header

/-- `header.rfind("HTTP/", 0) == 0`. -/
def isStatusLine (header : Str) : Bool := "HTTP/".toList.isPrefixOf header

/-- `if (part2.at(0) == ' ') part2.erase(0, 1)`, where `at` checks its index. -/
def eraseLeadingSpace : Str → Except Fault Str
  | [] => .error .outOfRange
  | c :: rest => .ok (if c = ' ' then rest else c :: rest)

/-- The line's first colon is its last character, so nothing follows it. -/
def EndsInFirstColon (header : Str) : Prop := ∃ name, ':' ∉ name ∧ header = name ++ [':']

/-- The shape is decided by the last character and the characters before it. -/
theorem endsInFirstColon_iff (header : Str) :
    EndsInFirstColon header ↔ header.getLast? = some ':' ∧ ':' ∉ header.dropLast := by
  constructor
  · rintro ⟨name, hname, rfl⟩
    exact ⟨List.getLast?_concat, by rwa [List.dropLast_concat]⟩
  · rintro ⟨hlast, hname⟩
    exact ⟨header.dropLast, hname, (List.dropLast_append_getLast? ':' hlast).symm⟩

instance (header : Str) : Decidable (EndsInFirstColon header) :=
  decidable_of_iff _ (endsInFirstColon_iff header).symm

/-- Every line either has no colon or is split by its first one. -/
theorem colon_split (header : Str) :
    ':' ∉ header ∨ ∃ name rest, ':' ∉ name ∧ header = name ++ ':' :: rest := by
  by_cases h : ':' ∈ header
  · obtain ⟨name, rest, he, hname⟩ := List.eq_append_cons_of_mem h
    exact .inr ⟨name, rest, hname, he⟩
  · exact .inl h

/-! ## What the callbacks write -/

variable [HeaderMap]

/-- Everything the program keeps about one request and its answer. -/
structure RequestInfo where
  /-- Request URL. -/
  url : Str := []
  /-- Body bytes received so far. -/
  body : Str := []
  /-- HTTP status code, filled in at completion. -/
  responseCode : UInt16 := 0
  /-- One header map for each status line received. -/
  headerCollection : List HTTPHeaders := []

/-- `header_collection.back().Insert(name, value)`. -/
def insertBack (collection : List HTTPHeaders) (name value : Str) :
    Except Fault (List HTTPHeaders) :=
  match collection.getLast? with
  | none => .error .emptyBack
  | some back => .ok (collection.dropLast ++ [HeaderMap.insert back name value])

/-- A status line opens a new header map, every other line keeps the collection. -/
def openBlock (collection : List HTTPHeaders) (header : Str) : List HTTPHeaders :=
  if isStatusLine header = true then
    collection ++ [HeaderMap.insert HeaderMap.empty responseStatusKey header]
  else collection

/-- The decoder shared by both header callbacks, on one line of bytes. -/
def collectHeader (collection : List HTTPHeaders) (line : Str) : Except Fault (List HTTPHeaders) :=
  let header := trimLineEnd line
  let collection := openBlock collection header
  match header.idxOf? ':' with
  | none => .ok collection
  | some colonPos => do
    let part1 := header.take colonPos
    let part2 ← eraseLeadingSpace (header.drop (colonPos + 1))
    insertBack collection part1 part2

/-- `CurlRequest::WriteHeader`: collect one line for the request at `userp`
and return the number of bytes consumed. -/
def writeHeader (d : Delivery) (info : RequestInfo) : Except Fault (Nat × RequestInfo) := do
  let totalSize := d.size * d.nmemb
  let collection ← collectHeader info.headerCollection (d.contents.take totalSize)
  .ok (totalSize, { info with headerCollection := collection })

/-- `CurlRequest::WriteBody`. -/
def writeBody (d : Delivery) (info : RequestInfo) : Except Fault (Nat × RequestInfo) :=
  let totalSize := d.size * d.nmemb
  .ok (totalSize, { info with body := info.body ++ d.contents.take totalSize })

/-- `RequestHeaderCallback`: the same decoder on the client's own collection. -/
def requestHeaderCallback (d : Delivery) (collection : List HTTPHeaders) :
    Except Fault (Nat × List HTTPHeaders) := do
  let totalSize := d.size * d.nmemb
  let collection ← collectHeader collection (d.contents.take totalSize)
  .ok (totalSize, collection)

/-- `RequestWriteCallback`: append to the client's own body. -/
def requestWriteCallback (d : Delivery) (body : Str) : Except Fault (Nat × Str) :=
  let totalSize := d.size * d.nmemb
  .ok (totalSize, body ++ d.contents.take totalSize)

/-- A line without a colon only decides whether a block is opened. -/
theorem collectHeader_plain {collection : List HTTPHeaders} {line : Str}
    (h : ':' ∉ trimLineEnd line) :
    collectHeader collection line = .ok (openBlock collection (trimLineEnd line)) := by
  have hi : (trimLineEnd line).idxOf? ':' = none := List.idxOf?_eq_none_iff.mpr h
  simp only [collectHeader, hi]

/-- A line with a colon stores what follows it, less one leading space,
under what precedes it. -/
theorem collectHeader_field {collection : List HTTPHeaders} {line name rest : Str}
    (hname : ':' ∉ name) (h : trimLineEnd line = name ++ ':' :: rest) :
    collectHeader collection line =
      (eraseLeadingSpace rest).bind (insertBack (openBlock collection (trimLineEnd line)) name) := by
  simp only [collectHeader, h, Text.idxOf?_append hname rest, List.take_left]
  rw [show (name ++ ':' :: rest).drop (name.length + 1) = rest by
    rw [List.drop_append, List.drop_eq_nil_of_le (Nat.le_succ _)]
    simp only [List.nil_append, Nat.add_sub_cancel_left, List.drop_succ_cons, List.drop_zero]]
  rfl

/-- The decoder itself never touches freed memory. -/
theorem collectHeader_fault {collection : List HTTPHeaders} {line : Str} {fault : Fault}
    (h : collectHeader collection line = .error fault) : fault = .outOfRange ∨ fault = .emptyBack := by
  rcases colon_split (trimLineEnd line) with hplain | ⟨name, rest, hname, hsplit⟩
  · rw [collectHeader_plain hplain] at h
    cases h
  · rw [collectHeader_field hname hsplit] at h
    cases rest with
    | nil =>
      have he : (Except.error .outOfRange : Except Fault (List HTTPHeaders)) = .error fault := h
      exact .inl (Except.error.inj he).symm
    | cons c rest =>
      have he : insertBack (openBlock collection (trimLineEnd line)) name
          (if c = ' ' then rest else c :: rest) = .error fault := h
      unfold insertBack at he
      split at he
      · exact .inr (Except.error.inj he).symm
      · cases he

end CurlHttpfs.Http
