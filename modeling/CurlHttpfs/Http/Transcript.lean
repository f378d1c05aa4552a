import CurlHttpfs.Http.Headers

/-!
# Folding the header callbacks over a transcript

A transcript is the sequence of header lines libcurl delivers for one
transfer, over all redirect hops. Both header callbacks reduce to one fold of
the line decoder. Once a status line has been seen the collection is never
empty again, so the only line either callback cannot take is one whose first
colon is its last character.
-/

namespace CurlHttpfs.Http

/-- Feed a transcript to a callback. The result is the list of returned byte
counts and the object written, or the first fault. -/
def deliverAll {τ : Type*} (callback : Delivery → τ → Except Fault (Nat × τ)) :
    List Delivery → τ → Except Fault (List Nat × τ)
  | [], target => .ok ([], target)
  | d :: ds, target => do
    let (count, target) ← callback d target
    let (counts, target) ← deliverAll callback ds target
    .ok (count :: counts, target)

/-- The byte counts a transcript should be answered with. -/
def byteCounts (ds : List Delivery) : List Nat := ds.map fun d => d.size * d.nmemb

/-- A callback takes a whole transcript, returning the full count for each line. -/
def Total {τ : Type*} (callback : Delivery → τ → Except Fault (Nat × τ)) (ds : List Delivery)
    (target : τ) : Prop := ∃ written, deliverAll callback ds target = .ok (byteCounts ds, written)

section

variable [HeaderMap]

/-- The line decoder folded over the lines of a transcript. -/
def collectAll (collection : List HTTPHeaders) (lines : List Str) : Except Fault (List HTTPHeaders) :=
  lines.foldlM collectHeader collection

theorem collectAll_cons (collection : List HTTPHeaders) (line : Str) (lines : List Str) :
    collectAll collection (line :: lines) =
      (collectHeader collection line).bind fun c => collectAll c lines := rfl

theorem collectAll_append (collection : List HTTPHeaders) (xs ys : List Str) :
    collectAll collection (xs ++ ys) = (collectAll collection xs).bind fun c => collectAll c ys :=
  List.foldlM_append

/-- Folding `RequestHeaderCallback` is the line fold; every count is the full one. -/
theorem deliverAll_requestHeaderCallback (ds : List Delivery) (collection : List HTTPHeaders) :
    deliverAll requestHeaderCallback ds collection =
      (collectAll collection (ds.map Delivery.contents)).map fun c => (byteCounts ds, c) := by
  induction ds generalizing collection with
  | nil => rfl
  | cons d ds ih =>
    rw [List.map_cons, collectAll_cons]
    simp only [deliverAll, requestHeaderCallback, Delivery.take_total]
    cases collectHeader collection d.contents with
    | error fault => rfl
    | ok c =>
      change (deliverAll requestHeaderCallback ds c).bind _ = _
      rw [ih]
      change _ = (collectAll c (ds.map Delivery.contents)).map _
      cases collectAll c (ds.map Delivery.contents) <;> rfl

/-- Folding `WriteHeader` is the same line fold on the request's collection;
nothing else of the request changes. -/
theorem deliverAll_writeHeader (ds : List Delivery) (info : RequestInfo) :
    deliverAll writeHeader ds info =
      (collectAll info.headerCollection (ds.map Delivery.contents)).map fun c =>
        (byteCounts ds, { info with headerCollection := c }) := by
  induction ds generalizing info with
  | nil => rfl
  | cons d ds ih =>
    rw [List.map_cons, collectAll_cons]
    simp only [deliverAll, writeHeader, Delivery.take_total]
    cases collectHeader info.headerCollection d.contents with
    | error fault => rfl
    | ok c =>
      change (deliverAll writeHeader ds { info with headerCollection := c }).bind _ = _
      rw [ih]
      change _ = (collectAll c (ds.map Delivery.contents)).map _
      cases collectAll c (ds.map Delivery.contents) <;> rfl

/-- A status line is never opened into an empty collection. -/
theorem openBlock_ne_nil {collection : List HTTPHeaders} {header : Str}
    (h : collection ≠ [] ∨ isStatusLine header = true) : openBlock collection header ≠ [] := by
  unfold openBlock
  split
  · exact List.append_ne_nil_of_right_ne_nil _ (List.cons_ne_nil _ _)
  · rename_i hs
    exact h.resolve_right hs

/-- On a nonempty collection `back()` is defined and the insertion keeps the length. -/
theorem insertBack_ok {collection : List HTTPHeaders} (h : collection ≠ []) (name value : Str) :
    insertBack collection name value =
      .ok (collection.dropLast ++ [HeaderMap.insert (collection.getLast h) name value]) := by
  simp only [insertBack, List.getLast?_eq_some_getLast h]

/-- With a block open, or opened by this very line, the decoder fails on
exactly one shape of line and otherwise leaves a block open. -/
theorem collectHeader_cases {collection : List HTTPHeaders} {line : Str}
    (h : collection ≠ [] ∨ isStatusLine (trimLineEnd line) = true) :
    (EndsInFirstColon (trimLineEnd line) → collectHeader collection line = .error .outOfRange) ∧
    (¬EndsInFirstColon (trimLineEnd line) →
      ∃ c, collectHeader collection line = .ok c ∧ c ≠ []) := by
  rcases colon_split (trimLineEnd line) with hplain | ⟨name, rest, hname, hsplit⟩
  · constructor
    · rintro ⟨name, -, he⟩
      exact absurd (he ▸ List.mem_append_right _ (List.mem_singleton_self _)) hplain
    · intro _
      exact ⟨_, collectHeader_plain hplain, openBlock_ne_nil h⟩
  · rw [collectHeader_field hname hsplit]
    cases rest with
    | nil =>
      constructor
      · intro _
        rfl
      · intro hne
        exact absurd ⟨name, hname, hsplit⟩ hne
    | cons c rest =>
      constructor
      · -- the name before the first colon is unique, so a character behind it stays
        rintro ⟨name', hname', he⟩
        rw [hsplit] at he
        exact absurd (Text.append_cons_inj hname hname' he).2 (List.cons_ne_nil _ _)
      · intro _
        refine ⟨_, insertBack_ok (openBlock_ne_nil h) _ _, ?_⟩
        exact List.append_ne_nil_of_right_ne_nil _ (List.cons_ne_nil _ _)

/-- Over a whole transcript the decoder succeeds exactly when no line ends
in its first colon. -/
theorem collectAll_ok_iff {collection : List HTTPHeaders} {lines : List Str}
    (h : collection ≠ [] ∨ ∃ line rest, lines = line :: rest ∧ isStatusLine (trimLineEnd line) = true) :
    (∃ c, collectAll collection lines = .ok c) ↔
      ∀ line ∈ lines, ¬EndsInFirstColon (trimLineEnd line) := by
  induction lines generalizing collection with
  | nil => exact ⟨fun _ _ hl => absurd hl List.not_mem_nil, fun _ => ⟨_, rfl⟩⟩
  | cons line lines ih =>
    have hfirst : collection ≠ [] ∨ isStatusLine (trimLineEnd line) = true := by
      rcases h with h | ⟨_, _, he, hs⟩
      · exact .inl h
      · obtain ⟨rfl, -⟩ := List.cons.inj he
        exact .inr hs
    obtain ⟨hbad, hgood⟩ := collectHeader_cases hfirst
    rw [collectAll_cons, List.forall_mem_cons]
    by_cases hcolon : EndsInFirstColon (trimLineEnd line)
    · rw [hbad hcolon]
      constructor
      · rintro ⟨c, hc⟩
        cases hc
      · exact fun hall => absurd hcolon hall.1
    · obtain ⟨c, hc, hne⟩ := hgood hcolon
      rw [hc]
      change (∃ c', collectAll c lines = .ok c') ↔ _
      rw [ih (.inl hne)]
      exact ⟨fun hall => ⟨hcolon, hall⟩, And.right⟩

theorem total_writeHeader_iff (ds : List Delivery) (info : RequestInfo) :
    Total writeHeader ds info ↔
      ∃ c, collectAll info.headerCollection (ds.map Delivery.contents) = .ok c := by
  unfold Total
  rw [deliverAll_writeHeader]
  cases collectAll info.headerCollection (ds.map Delivery.contents) with
  | error fault => exact ⟨fun ⟨_, h⟩ => (nomatch h), fun ⟨_, h⟩ => (nomatch h)⟩
  | ok c => exact ⟨fun _ => ⟨c, rfl⟩, fun _ => ⟨_, rfl⟩⟩

theorem total_requestHeaderCallback_iff (ds : List Delivery) (collection : List HTTPHeaders) :
    Total requestHeaderCallback ds collection ↔
      ∃ c, collectAll collection (ds.map Delivery.contents) = .ok c := by
  unfold Total
  rw [deliverAll_requestHeaderCallback]
  cases collectAll collection (ds.map Delivery.contents) with
  | error fault => exact ⟨fun ⟨_, h⟩ => (nomatch h), fun ⟨_, h⟩ => (nomatch h)⟩
  | ok c => exact ⟨fun _ => ⟨c, rfl⟩, fun _ => ⟨_, rfl⟩⟩

/-- On every transcript that starts with a status line, both header callbacks
return the full byte count for every line exactly when no line, after its
line end is trimmed, has its first colon as its last character. -/
theorem headerCallbacks_total_iff (first : Delivery) (rest : List Delivery) (info : RequestInfo)
    (collection : List HTTPHeaders)
    (hstart : isStatusLine (trimLineEnd first.contents) = true) :
    (Total writeHeader (first :: rest) info ↔
      ∀ d ∈ first :: rest, ¬EndsInFirstColon (trimLineEnd d.contents)) ∧
    (Total requestHeaderCallback (first :: rest) collection ↔
      ∀ d ∈ first :: rest, ¬EndsInFirstColon (trimLineEnd d.contents)) := by
  have hlines (c : List HTTPHeaders) :
      (∃ c', collectAll c ((first :: rest).map Delivery.contents) = .ok c') ↔
        ∀ line ∈ (first :: rest).map Delivery.contents, ¬EndsInFirstColon (trimLineEnd line) :=
    collectAll_ok_iff (.inr ⟨_, _, List.map_cons, hstart⟩)
  rw [total_writeHeader_iff, total_requestHeaderCallback_iff, hlines, hlines]
  simp only [List.forall_mem_map, and_self]

end

/-- The characterisation applied to a response with one ordinary field. -/
theorem headerCallbacks_total_iff_host :
    Total writeHeader [.ofLine "HTTP/1.1 200 OK\r\n".toList, .ofLine "Host: a\r\n".toList] {} ↔
      ∀ d ∈ [Delivery.ofLine "HTTP/1.1 200 OK\r\n".toList, .ofLine "Host: a\r\n".toList],
        ¬EndsInFirstColon (trimLineEnd d.contents) :=
  (headerCallbacks_total_iff _ _ {} [] (by decide)).1

/-- A field with an empty value and no space makes both callbacks throw. -/
theorem emptyField_throws :
    isStatusLine (trimLineEnd "HTTP/1.1 200 OK\r\n".toList) = true ∧
    ¬Total writeHeader [.ofLine "HTTP/1.1 200 OK\r\n".toList, .ofLine "X-Empty:\r\n".toList] {} ∧
    ¬Total requestHeaderCallback
      [.ofLine "HTTP/1.1 200 OK\r\n".toList, .ofLine "X-Empty:\r\n".toList] [] := by
  refine ⟨by decide, ?_, ?_⟩
  · rintro ⟨written, h⟩
    have hthrow : deliverAll writeHeader
        [.ofLine "HTTP/1.1 200 OK\r\n".toList, .ofLine "X-Empty:\r\n".toList] {} =
        .error .outOfRange := rfl
    rw [hthrow] at h
    cases h
  · rintro ⟨written, h⟩
    have hthrow : deliverAll requestHeaderCallback
        [.ofLine "HTTP/1.1 200 OK\r\n".toList, .ofLine "X-Empty:\r\n".toList] [] =
        .error .outOfRange := rfl
    rw [hthrow] at h
    cases h

end CurlHttpfs.Http
