import CurlHttpfs.Lib.FoldedMap

/-!
# Header maps

Header maps come from DuckDB. The program stores and looks up headers through
them and knows only that names are compared up to case and that an insertion
never overwrites.
-/

namespace CurlHttpfs.Http

/-- A `std::string`, one character for each byte. -/
abbrev Str := List Char

/-- Case folding of header names, ASCII letters only. -/
def lowerStr (s : Str) : Str := s.map Char.toLower

/-- DuckDB's `HTTPHeaders`, which the program only uses. -/
class HeaderMap where
  /-- The maps. -/
  Map : Type
  /-- A map without entries. -/
  empty : Map
  /-- `Insert`. -/
  insert : Map → Str → Str → Map
  /-- The value of a name that is present. -/
  find? : Map → Str → Option Str
  /-- The entries in the order of iteration. -/
  entries : Map → List (Str × Str)

/-- What is known of `HTTPHeaders`: names are compared up to case, `Insert`
never overwrites an entry, and iteration visits the value of every name. -/
class LawfulHeaderMap [HeaderMap] : Prop where
  /-- Nothing is present in an empty map. -/
  find?_empty (name : Str) : HeaderMap.find? HeaderMap.empty name = none
  /-- An insertion is seen under its name, up to case, unless one was there before. -/
  find?_insert (headers : HeaderMap.Map) (key value name : Str) :
    HeaderMap.find? (HeaderMap.insert headers key value) name =
      (HeaderMap.find? headers name).or (if lowerStr key = lowerStr name then some value else none)
  /-- A lookup finds what iteration visits under the name. -/
  find?_entries (headers : HeaderMap.Map) (name : Str) :
    HeaderMap.find? headers name = FoldedMap.firstOf lowerStr (HeaderMap.entries headers) name

/-- `HTTPHeaders`. -/
abbrev HTTPHeaders [HeaderMap] : Type := HeaderMap.Map

namespace HeaderMap

variable [HeaderMap]

/-- `HasHeader`. -/
def hasHeader (headers : HTTPHeaders) (name : Str) : Bool := (find? headers name).isSome

/-- `GetHeaderValue`, which throws when the name is absent. -/
def getHeaderValue (headers : HTTPHeaders) (name : Str) (h : hasHeader headers name = true) : Str :=
  (find? headers name).get h

/-- `Insert` for every entry of an iteration. -/
def insertAll (headers : HTTPHeaders) (entries : List (Str × Str)) : HTTPHeaders :=
  entries.foldl (fun headers e => insert headers e.1 e.2) headers

/-- Inserting a list is seen as the first entry of the list under the query. -/
theorem find?_insertAll [LawfulHeaderMap] (headers : HTTPHeaders) (entries : List (Str × Str))
    (name : Str) :
    find? (insertAll headers entries) name =
      (find? headers name).or (FoldedMap.firstOf lowerStr entries name) := by
  induction entries generalizing headers with
  | nil => exact (Option.or_none).symm
  | cons e entries ih =>
    change find? (insertAll (insert headers e.1 e.2) entries) name = _
    rw [ih, LawfulHeaderMap.find?_insert, FoldedMap.firstOf_cons, Option.or_assoc]
    split <;> rfl

end HeaderMap

/-- The map that keeps its entries in insertion order. -/
instance foldedHeaders : HeaderMap where
  Map := FoldedMap lowerStr Str
  empty := FoldedMap.empty
  insert := FoldedMap.insert
  find? := FoldedMap.find?
  entries headers := headers.entries

instance : LawfulHeaderMap where
  find?_empty _ := rfl
  find?_insert := FoldedMap.find?_insert
  find?_entries _ _ := rfl

end CurlHttpfs.Http
