import Mathlib.Data.List.Forall2
import CurlHttpfs.Http.Transcript
import CurlHttpfs.Http.Response

/-!
# Decoding well-formed header blocks

A response is a list of blocks: every redirect hop and the final answer send
a status line and fields. The decoder keeps one map for each block. A map
holds its status line under an internal name and the first field of every
other name, whatever the server sends under the internal name, and only the
last map reaches the caller.
-/

namespace CurlHttpfs.Http

/-- Characters an HTTP token may contain. -/
def isTokenChar (c : Char) : Bool := c.isAlphanum || "!#$%&'*+-.^_`|~".toList.contains c

/-- A nonempty HTTP token. -/
def IsToken (name : Str) : Prop := name ≠ [] ∧ ∀ c ∈ name, isTokenChar c = true

-- the list is searched, not the type of characters
instance (name : Str) : Decidable (IsToken name) :=
  @instDecidableAnd _ _ inferInstance (List.decidableBAll _ name)

/-- Text that carries no line end of its own. -/
def OneLine (text : Str) : Prop := '\r' ∉ text ∧ '\n' ∉ text

instance (text : Str) : Decidable (OneLine text) := inferInstanceAs (Decidable (_ ∧ _))

/-- One field of a block; the value may be empty, start with spaces or contain colons. -/
structure Field where
  /-- Field name. -/
  name : Str
  /-- Field value. -/
  value : Str
  /-- Names are tokens. -/
  name_token : IsToken name
  /-- Values stay on one line. -/
  value_line : OneLine value

/-- One well-formed block of a response. -/
structure Block where
  /-- The status line without its line end. -/
  statusLine : Str
  /-- The fields in the order sent. -/
  fields : List Field
  /-- Status lines start with `HTTP/`. -/
  status_http : isStatusLine statusLine = true
  /-- Status lines stay on one line. -/
  status_line : OneLine statusLine
  /-- A colon in the status line is not its last character if it is its first colon. -/
  status_colon : ¬EndsInFirstColon statusLine

/-- The line of a field without its line end. -/
def Field.line (field : Field) : Str := field.name ++ ": ".toList ++ field.value

/-- The field as an entry of a header map. -/
def Field.entry (field : Field) : Str × Str := (field.name, field.value)

/-- The lines of a block, closed by the blank line, without line ends. -/
def Block.lines (block : Block) : List Str :=
  block.statusLine :: (block.fields.map Field.line ++ [[]])

/-- A line delivered with CRLF or with LF. -/
def EndsLine (delivered line : Str) : Prop :=
  delivered = line ++ ['\r', '\n'] ∨ delivered = line ++ ['\n']

/-! ## Lines -/

/-- Trimming undoes either line end. -/
theorem trimLineEnd_endsLine {delivered line : Str} (hline : OneLine line)
    (h : EndsLine delivered line) : trimLineEnd delivered = line := by
  rcases h with rfl | rfl
  · rw [show line ++ ['\r', '\n'] = line ++ ['\r'] ++ ['\n'] by rw [List.append_assoc]; rfl]
    simp only [trimLineEnd, List.getLast?_append, List.getLast?_singleton, Option.some_or,
      if_true, List.dropLast_concat]
  · have hcr : line.getLast? ≠ some '\r' := fun he => hline.1 (List.mem_of_getLast? he)
    simp only [trimLineEnd, List.getLast?_append, List.getLast?_singleton, Option.some_or,
      if_true, List.dropLast_concat, hcr, if_false]

/-- No token contains a character that is not a token character. -/
theorem IsToken.not_mem {name : Str} (h : IsToken name) {c : Char} (hc : isTokenChar c = false) :
    c ∉ name := fun hm => absurd (h.2 c hm) (by rw [hc]; exact Bool.false_ne_true)

/-- A field line split at its first colon, the one behind the name. -/
theorem Field.line_eq (field : Field) : field.line = field.name ++ ':' :: ' ' :: field.value := by
  rw [Field.line, List.append_assoc]
  rfl

/-- `HTTP/` has a slash and no colon, so a status line has a slash before any colon. -/
theorem slash_before_colon {name rest : Str} (h : isStatusLine (name ++ ':' :: rest) = true) :
    '/' ∈ name := by
  have hhttp := List.isPrefixOf_iff_prefix.mp h
  have hname : name ++ [':'] <+: name ++ ':' :: rest := ⟨rest, by rw [List.append_assoc]; rfl⟩
  rcases List.prefix_or_prefix_of_prefix hname hhttp with hpre | hpre
  · have hcolon : ':' ∈ "HTTP/".toList :=
      hpre.subset (List.mem_append_right _ (List.mem_singleton_self _))
    exact absurd hcolon (by decide)
  · have hslash : '/' ∈ name ++ [':'] := hpre.subset (by decide)
    rcases List.mem_append.mp hslash with hmem | hmem
    · exact hmem
    · exact absurd hmem (by decide)

/-- A field line never looks like a status line, since its name is a token. -/
theorem Field.not_statusLine (field : Field) : isStatusLine field.line = false := by
  rw [← Bool.not_eq_true, field.line_eq]
  exact fun h => field.name_token.not_mem (by decide) (slash_before_colon h)

/-- A field stays on one line. -/
theorem Field.oneLine (field : Field) : OneLine field.line := by
  have hname {c : Char} (hc : isTokenChar c = false) : c ∉ field.name := field.name_token.not_mem hc
  rw [OneLine, field.line_eq]
  simp only [List.mem_append, List.mem_cons, hname (show isTokenChar '\r' = false by decide),
    hname (show isTokenChar '\n' = false by decide), field.value_line.1, field.value_line.2,
    false_or, or_false]
  decide

/-- Only a slash folds to a slash. -/
theorem toLower_eq_slash {c : Char} (h : c.toLower = '/') : c = '/' := by
  unfold Char.toLower at h
  split at h
  · rename_i hup
    have hlow : 'A'.val.toNat ≤ c.val.toNat := hup.1
    have hval := congrArg (fun c : Char => c.val.toNat) h
    have hbound : c.val.toNat ≤ 'Z'.val.toNat := hup.2
    simp only [UInt32.toNat_add] at hval
    rw [show 'A'.val.toNat = 65 from rfl] at hlow
    rw [show 'Z'.val.toNat = 90 from rfl] at hbound
    rw [show ('a'.val - 'A'.val).toNat = 32 from rfl, show '/'.val.toNat = 47 from rfl] at hval
    omega
  · exact h

/-- A name with a slash is not a token in any spelling. -/
theorem IsToken.lower_ne {name other : Str} (h : IsToken name) (hslash : '/' ∈ other) :
    lowerStr other ≠ lowerStr name := by
  intro he
  have hmem : '/' ∈ lowerStr name := he ▸ List.mem_map.mpr ⟨'/', hslash, rfl⟩
  obtain ⟨c, hc, hfold⟩ := List.mem_map.mp hmem
  exact h.not_mem (by decide) (toLower_eq_slash hfold ▸ hc)

/-! ## Blocks -/

section

variable [HeaderMap]

/-- With a last map known, `back().Insert` acts on it. -/
theorem insertBack_concat (collection : List HTTPHeaders) (headers : HTTPHeaders)
    (name value : Str) :
    insertBack (collection ++ [headers]) name value =
      .ok (collection ++ [HeaderMap.insert headers name value]) := by
  simp only [insertBack, List.getLast?_concat, List.dropLast_concat]

/-- What a decoded map says about its block. -/
structure Decodes (headers : HTTPHeaders) (block : Block) : Prop where
  /-- The internal name holds the status line. -/
  status : HeaderMap.find? headers responseStatusKey = some block.statusLine
  /-- Every other token holds the first field of that name, up to case. -/
  field : ∀ name, IsToken name → lowerStr responseStatusKey ≠ lowerStr name →
    HeaderMap.find? headers name = FoldedMap.firstOf lowerStr (block.fields.map Field.entry) name

/-- The map opened by a status line: tokens other than the internal name find
nothing in it, even when the status line itself contains a colon. -/
theorem collect_statusLine [LawfulHeaderMap] (block : Block) {line : Str} (hline : EndsLine line block.statusLine)
    (collection : List HTTPHeaders) :
    ∃ headers : HTTPHeaders, collectHeader collection line = .ok (collection ++ [headers]) ∧
      HeaderMap.find? headers responseStatusKey = some block.statusLine ∧
      ∀ name, IsToken name → lowerStr responseStatusKey ≠ lowerStr name →
        HeaderMap.find? headers name = none := by
  have htrim := trimLineEnd_endsLine block.status_line hline
  have hopen : openBlock collection (trimLineEnd line) =
      collection ++ [HeaderMap.insert HeaderMap.empty responseStatusKey block.statusLine] := by
    rw [htrim, openBlock, if_pos block.status_http]
  rcases colon_split block.statusLine with hplain | ⟨name, rest, hname, hsplit⟩
  · refine ⟨_, (collectHeader_plain (htrim ▸ hplain)).trans (congrArg _ hopen), ?_, ?_⟩
    · rw [LawfulHeaderMap.find?_insert, if_pos rfl, LawfulHeaderMap.find?_empty, Option.none_or]
    · intro query _ hquery
      rw [LawfulHeaderMap.find?_insert, if_neg hquery, LawfulHeaderMap.find?_empty, Option.or_none]
  · cases rest with
    | nil => exact absurd ⟨name, hname, hsplit⟩ block.status_colon
    | cons c rest =>
      have hslash : '/' ∈ name := slash_before_colon (hsplit ▸ block.status_http)
      rw [collectHeader_field hname (htrim.trans hsplit), hopen]
      refine ⟨_, insertBack_concat _ _ _ _, ?_, ?_⟩
      · rw [LawfulHeaderMap.find?_insert, LawfulHeaderMap.find?_insert, if_pos rfl,
          LawfulHeaderMap.find?_empty, Option.none_or, Option.some_or]
      · -- what the status line's own colon stores lies under a name with a slash
        intro query htoken hquery
        rw [LawfulHeaderMap.find?_insert, LawfulHeaderMap.find?_insert, if_neg hquery,
          if_neg (htoken.lower_ne hslash), LawfulHeaderMap.find?_empty, Option.or_none, Option.or_none]

/-- A field goes to the last map, under its name and with its full value. -/
theorem collect_field (field : Field) {line : Str} (hline : EndsLine line field.line)
    (collection : List HTTPHeaders) (headers : HTTPHeaders) :
    collectHeader (collection ++ [headers]) line =
      .ok (collection ++ [HeaderMap.insert headers field.name field.value]) := by
  have htrim := trimLineEnd_endsLine field.oneLine hline
  have hopen : openBlock (collection ++ [headers]) (trimLineEnd line) = collection ++ [headers] := by
    rw [htrim, openBlock, field.not_statusLine, if_neg Bool.false_ne_true]
  rw [collectHeader_field (field.name_token.not_mem (by decide)) (htrim.trans field.line_eq), hopen]
  exact insertBack_concat _ _ _ _

/-- The fields of a block are inserted in order into the last map. -/
theorem collect_fields {fields : List Field} {lines : List Str}
    (hlines : List.Forall₂ EndsLine lines (fields.map Field.line))
    (collection : List HTTPHeaders) (headers : HTTPHeaders) :
    collectAll (collection ++ [headers]) lines =
      .ok (collection ++ [HeaderMap.insertAll headers (fields.map Field.entry)]) := by
  induction fields generalizing lines headers with
  | nil =>
    obtain rfl := List.forall₂_nil_right_iff.mp hlines
    rfl
  | cons field fields ih =>
    obtain ⟨line, rest, hline, hrest, rfl⟩ := List.forall₂_cons_right_iff.mp hlines
    rw [collectAll_cons, collect_field field hline]
    exact ih hrest _

/-- The blank line behind a block changes nothing. -/
theorem collect_blank {line : Str} (hline : EndsLine line []) (collection : List HTTPHeaders) :
    collectHeader collection line = .ok collection := by
  have htrim := trimLineEnd_endsLine ⟨List.not_mem_nil, List.not_mem_nil⟩ hline
  rw [collectHeader_plain (htrim ▸ List.not_mem_nil), htrim]
  rfl

/-- One block appends exactly one map, which decodes the block. -/
theorem collect_block [LawfulHeaderMap] (block : Block) {lines : List Str}
    (hlines : List.Forall₂ EndsLine lines block.lines) (collection : List HTTPHeaders) :
    ∃ headers : HTTPHeaders,
      collectAll collection lines = .ok (collection ++ [headers]) ∧ Decodes headers block := by
  obtain ⟨line, rest, hstatus, hrest, rfl⟩ := List.forall₂_cons_right_iff.mp hlines
  obtain ⟨opened, hopened, hkey, hother⟩ := collect_statusLine block hstatus collection
  have hfields := List.forall₂_take_append rest _ _ hrest
  have hblank := List.forall₂_drop_append rest _ _ hrest
  refine ⟨HeaderMap.insertAll opened (block.fields.map Field.entry), ?_, ?_, ?_⟩
  · obtain ⟨blank, tail, hb, htail, hsplit⟩ := List.forall₂_cons_right_iff.mp hblank
    obtain rfl := List.forall₂_nil_right_iff.mp htail
    rw [← List.take_append_drop (block.fields.map Field.line).length rest, hsplit,
      collectAll_cons, hopened]
    change collectAll (collection ++ [opened]) _ = _
    rw [collectAll_append, collect_fields hfields]
    change collectAll _ [blank] = _
    rw [collectAll_cons, collect_blank hb]
    rfl
  · rw [HeaderMap.find?_insertAll, hkey, Option.some_or]
  · intro name htoken hname
    rw [HeaderMap.find?_insertAll, hother name htoken hname, Option.none_or]

/-- A list of blocks appends one map for each block, in order. -/
theorem collect_blocks [LawfulHeaderMap] {blocks : List Block} {lines : List Str}
    (hlines : List.Forall₂ EndsLine lines (blocks.flatMap Block.lines))
    (collection : List HTTPHeaders) :
    ∃ decoded, collectAll collection lines = .ok (collection ++ decoded) ∧
      List.Forall₂ Decodes decoded blocks := by
  induction blocks generalizing lines collection with
  | nil =>
    obtain rfl := List.forall₂_nil_right_iff.mp hlines
    exact ⟨[], by rw [List.append_nil]; rfl, .nil⟩
  | cons block blocks ih =>
    rw [List.flatMap_cons] at hlines
    obtain ⟨headers, hblock, hdecodes⟩ :=
      collect_block block (List.forall₂_take_append lines _ _ hlines) collection
    obtain ⟨decoded, hrest, hall⟩ :=
      ih (List.forall₂_drop_append lines _ _ hlines) (collection ++ [headers])
    refine ⟨headers :: decoded, ?_, .cons hdecodes hall⟩
    rw [← List.take_append_drop block.lines.length lines, collectAll_append, hblock]
    change collectAll (collection ++ [headers]) _ = _
    rw [hrest, List.append_assoc]
    rfl

/-- The headers of a successful response are those of the last map, apart
from the internal name. -/
theorem checkMultiHeaders_find? [LawfulHeaderMap] {collection : List HTTPHeaders} {back : HTTPHeaders}
    (hback : collection.getLast? = some back) {name : Str}
    (hname : lowerStr responseStatusKey ≠ lowerStr name) :
    HeaderMap.find? (checkMultiHeaders collection) name = HeaderMap.find? back name := by
  simp only [checkMultiHeaders, hback, HeaderMap.find?_insertAll, LawfulHeaderMap.find?_empty,
    Option.none_or]
  rw [LawfulHeaderMap.find?_entries back]
  refine FoldedMap.firstOf_filter fun e _ hfold => ?_
  exact decide_eq_true fun he => hname (he ▸ hfold)

/-- Redirect isolation. On every nonempty list of well-formed blocks, with
either line end on each line, `WriteHeader` consumes every line and leaves
exactly one map for each block, in order, which decodes that block. The
headers of the successful response agree with the last block on every token
except the internal name. -/
theorem writeHeader_blocks [LawfulHeaderMap] (lib : Library) (earlier : List Block) (last : Block)
    (ds : List Delivery) (info : RequestInfo) (hfresh : info.headerCollection = [])
    (hlines : List.Forall₂ EndsLine (ds.map Delivery.contents)
      ((earlier ++ [last]).flatMap Block.lines)) :
    ∃ written, deliverAll writeHeader ds info = .ok (byteCounts ds, written) ∧
      List.Forall₂ Decodes written.headerCollection (earlier ++ [last]) ∧
      ∀ name, IsToken name → lowerStr responseStatusKey ≠ lowerStr name →
        HeaderMap.find? (checkMultiResponse lib written curleOk).headers name =
          FoldedMap.firstOf lowerStr (last.fields.map Field.entry) name := by
  obtain ⟨decoded, hcollect, hall⟩ := collect_blocks hlines info.headerCollection
  rw [hfresh, List.nil_append] at hcollect
  refine ⟨{ info with headerCollection := decoded }, ?_, hall, ?_⟩
  · rw [deliverAll_writeHeader, hfresh, hcollect]
    rfl
  · intro name htoken hname
    -- the map at the end of the collection is the one that decodes the last block
    obtain ⟨back, tail, hback, htail, hsplit⟩ :=
      List.forall₂_cons_right_iff.mp (List.forall₂_drop_append decoded earlier [last] hall)
    obtain rfl := List.forall₂_nil_right_iff.mp htail
    have hlast : decoded.getLast? = some back := by
      rw [← List.take_append_drop earlier.length decoded, hsplit, List.getLast?_concat]
    exact (checkMultiHeaders_find? hlast hname).trans (hback.field name htoken hname)

end

/-- A redirect hop that names its target. -/
def redirectHop : Block where
  statusLine := "HTTP/1.1 302 Found".toList
  fields := [⟨"Location".toList, "http://b:80/".toList, by decide, by decide⟩]
  status_http := by decide
  status_line := by decide
  status_colon := by decide

/-- The answer behind the redirect, with a colon in its status line and a
field that imitates the internal name. -/
def finalAnswer : Block where
  statusLine := "HTTP/1.1 200 OK: cached".toList
  fields := [⟨responseStatusKey, [], by decide, by decide⟩]
  status_http := by decide
  status_line := by decide
  status_colon := by decide

/-- The redirect target is not visible behind the redirect. -/
theorem writeHeader_blocks_redirect :
    ∃ written, deliverAll writeHeader
        [.ofLine "HTTP/1.1 302 Found\r\n".toList, .ofLine "Location: http://b:80/\r\n".toList,
          .ofLine "\r\n".toList, .ofLine "HTTP/1.1 200 OK: cached\n".toList,
          .ofLine "__RESPONSE_STATUS__: \r\n".toList, .ofLine "\n".toList] {} =
        .ok ([20, 24, 2, 24, 23, 1], written) ∧
      List.Forall₂ Decodes written.headerCollection [redirectHop, finalAnswer] ∧
      HeaderMap.find? (checkMultiResponse .common written curleOk).headers "location".toList = none := by
  obtain ⟨written, hwritten, hall, hlast⟩ := writeHeader_blocks .common [redirectHop] finalAnswer
    [.ofLine "HTTP/1.1 302 Found\r\n".toList, .ofLine "Location: http://b:80/\r\n".toList,
      .ofLine "\r\n".toList, .ofLine "HTTP/1.1 200 OK: cached\n".toList,
      .ofLine "__RESPONSE_STATUS__: \r\n".toList, .ofLine "\n".toList] {} rfl
    (.cons (.inl rfl) (.cons (.inl rfl) (.cons (.inl rfl) (.cons (.inr rfl)
      (.cons (.inl rfl) (.cons (.inr rfl) .nil))))))
  exact ⟨written, hwritten, hall, hlast "location".toList (by decide) (by decide)⟩

end CurlHttpfs.Http
