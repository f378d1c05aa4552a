import CurlHttpfs.Client.Wire

/-!
# The header list of a call

Every call builds its own header list and frees it when it returns, while
`CURLOPT_HTTPHEADER` keeps the pointer. Blocking calls always write the
option, with null for an empty list. Queued calls skip it for an empty list,
so they send whatever list an earlier call left installed.
-/

namespace CurlHttpfs.Client

open Http Curl

/-- The header list pointer is null exactly when the list is empty. -/
theorem ofLines_eq_none_iff (object : ObjectId) (lines : List Str) :
    SList.ofLines object lines = none ↔ lines = [] := by
  unfold SList.ofLines
  by_cases h : lines = []
  · rw [if_pos h]
    exact ⟨fun _ => h, fun _ => rfl⟩
  · rw [if_neg h]
    exact ⟨nofun, fun he => absurd he h⟩

/-- A list of the call itself sends exactly its lines. -/
theorem ofLines_sent (object : ObjectId) (lines : List Str) :
    ((SList.ofLines object lines).map SList.lines).getD [] = lines := by
  unfold SList.ofLines
  by_cases h : lines = []
  · rw [if_pos h, h]
    rfl
  · rw [if_neg h]
    rfl

section

variable [HeaderMap]

/-- Uploads always have a content type line. -/
theorem headerLines_upload {op : Operation} (h : op.headerLines = []) :
    op.kind ≠ .put ∧ op.kind ≠ .post := by
  cases op with
  | get _ | head _ | delete _ => exact ⟨nofun, nofun⟩
  | put info => exact absurd h (List.append_ne_nil_of_right_ne_nil _ (List.cons_ne_nil _ _))
  | post info => exact absurd h (List.append_ne_nil_of_right_ne_nil _ (List.cons_ne_nil _ _))

/-- Every earlier call with a header list is followed by a `Delete` without
one, the only call that installs null. -/
def ListCleared (earlier : List Operation) : Prop :=
  Followed (fun op => op.headerLines ≠ []) (fun op => op.kind = .delete ∧ op.headerLines = []) earlier

/-- The header option after a history of operations. -/
structure HeaderOption (earlier : List Operation) (easy : Easy) : Prop where
  /-- The option is null exactly after a cleared history. -/
  cleared : easy.httpHeader = none ↔ ListCleared earlier
  /-- An installed list has lines. -/
  lines : ∀ list, easy.httpHeader = some list → list.lines ≠ []

/-- What a call installs: a queued call keeps the old list in place of an empty one. -/
theorem start_httpHeader (client : MultiCurlClient) (op : Operation) :
    (start client op).client.curl.httpHeader =
      if op.kind.queued = true then
        (SList.ofLines (start client op).object op.headerLines).or client.curl.httpHeader
      else SList.ofLines (start client op).object op.headerLines := by
  cases op with
  | get info | head info =>
    simp only [start, startGet, startHead, startQueued, CurlRequest.setHeaders_eq, Operation.kind,
      Kind.queued, if_true]
    rfl
  | put info | delete info | post info => rfl

/-- One more call moves the option as `ListCleared` says. -/
theorem start_headerOption {earlier : List Operation} {client : MultiCurlClient} (op : Operation)
    (h : HeaderOption earlier client.curl) :
    HeaderOption (earlier ++ [op]) (start client op).client.curl := by
  have hinstall := start_httpHeader client op
  by_cases hlines : op.headerLines = []
  · have hempty := (ofLines_eq_none_iff (start client op).object op.headerLines).mpr hlines
    rw [hempty] at hinstall
    cases hop : op.kind.queued with
    | true =>
      rw [if_pos hop, Option.none_or] at hinstall
      refine ⟨?_, fun list hlist => h.lines list (hinstall ▸ hlist)⟩
      rw [hinstall, h.cleared, ListCleared, ListCleared, followed_concat]
      have hnot : op.kind ≠ .delete := fun he => by rw [he] at hop; cases hop
      constructor
      · intro hf
        exact ⟨.inl hf, not_not.mpr hlines⟩
      · intro hf
        exact hf.1.resolve_right fun hg => hnot hg.1
    | false =>
      rw [hop, if_neg Bool.false_ne_true] at hinstall
      refine ⟨?_, fun list hlist => nomatch hinstall.symm.trans hlist⟩
      rw [hinstall, ListCleared, followed_concat]
      have hdelete : op.kind = .delete := by
        have hupload := headerLines_upload hlines
        cases hk : op.kind with
        | get | head => rw [hk] at hop; cases hop
        | delete => rfl
        | put => exact absurd hk hupload.1
        | post => exact absurd hk hupload.2
      exact ⟨fun _ => ⟨.inr ⟨hdelete, hlines⟩, not_not.mpr hlines⟩, fun _ => rfl⟩
  · have hown : (start client op).client.curl.httpHeader =
        some ⟨(start client op).object, op.headerLines⟩ := by
      rw [hinstall, SList.ofLines, if_neg hlines, Option.some_or, ite_self]
    refine ⟨?_, ?_⟩
    · rw [hown, ListCleared, followed_concat]
      exact ⟨nofun, fun hf => absurd hlines hf.2⟩
    · intro list hlist
      obtain rfl := Option.some.inj (hown.symm.trans hlist)
      exact hlines

/-- The operations of a history of calls. -/
def operations (calls : List Call) : List Operation := calls.map Call.op

/-- The header option every started call finds. -/
theorem run_headerOption {lib : Library} {fileExists : Str → Bool} {params : HTTPFSParams}
    {calls : List Call} {i : Nat} {record : Record}
    (h : (run lib (initClient fileExists params) calls)[i]? = some record) :
    ∃ before, HeaderOption (operations (calls.take i)) before.curl ∧
      record.started = start before record.call.op := by
  have hkeep (earlier : List Call) (client : MultiCurlClient) (call : Call) (next : MultiCurlClient)
      (answer : Answer) (hI : HeaderOption (operations earlier) client.curl)
      (hc : complete lib (start client call.op) call.op call.outcome = .ok (next, answer)) :
      HeaderOption (operations (earlier ++ [call])) next.curl := by
    rw [(complete_options hc).1, operations, List.map_append]
    exact start_headerOption call.op hI
  have hinit : HeaderOption [] (initClient fileExists params).curl :=
    ⟨⟨fun _ => followed_nil, fun _ => rfl⟩, fun _ hlist => nomatch hlist⟩
  obtain ⟨before, hoption, hstarted, -⟩ := run_history
    (I := fun earlier client => HeaderOption (operations earlier) client.curl) hkeep [] hinit h
  exact ⟨before, hoption, hstarted⟩

/-- In every sequence of calls on one initialized client, the header option
of a started call denotes the list that call built, null when it is empty,
and the custom headers sent are exactly its lines, if and only if the call is
a `Put`, `Post` or `Delete`, or has a nonempty list, or every earlier call
with a list is followed by a `Delete` without one. -/
theorem run_headers_iff (lib : Library) (fileExists : Str → Bool) (params : HTTPFSParams)
    (calls : List Call) (i : Nat) (record : Record)
    (h : (run lib (initClient fileExists params) calls)[i]? = some record) :
    (record.started.client.curl.httpHeader =
        SList.ofLines record.started.object record.call.op.headerLines ↔
      record.call.op.kind.queued = false ∨ record.call.op.headerLines ≠ [] ∨
        ListCleared (operations (calls.take i))) ∧
    (record.started.client.curl.sentHeaders = record.call.op.headerLines ↔
      record.call.op.kind.queued = false ∨ record.call.op.headerLines ≠ [] ∨
        ListCleared (operations (calls.take i))) := by
  obtain ⟨before, hoption, hstarted⟩ := run_headerOption h
  have hinstall := start_httpHeader before record.call.op
  rw [← hstarted] at hinstall
  have hown := ofLines_sent record.started.object record.call.op.headerLines
  have hnone := ofLines_eq_none_iff record.started.object record.call.op.headerLines
  by_cases hcond : record.call.op.kind.queued = false ∨ record.call.op.headerLines ≠ [] ∨
      ListCleared (operations (calls.take i))
  · -- the call's own list is installed, in the last case as a null over a null
    have hexact : record.started.client.curl.httpHeader =
        SList.ofLines record.started.object record.call.op.headerLines := by
      rw [hinstall]
      split
      · rename_i hqueued
        rcases hcond with hb | hl | hf
        · rw [hb] at hqueued
          cases hqueued
        · cases ho : SList.ofLines record.started.object record.call.op.headerLines with
          | none => exact absurd (hnone.mp ho) hl
          | some list => rfl
        · rw [hoption.cleared.mpr hf, Option.or_none]
      · rfl
    refine ⟨⟨fun _ => hcond, fun _ => hexact⟩, ⟨fun _ => hcond, fun _ => ?_⟩⟩
    rw [Easy.sentHeaders, hexact, hown]
  · -- a queued call without a list over the list of an earlier call
    obtain ⟨hqueued, hlines, hf⟩ := by simpa only [not_or] using hcond
    have hlines := not_not.mp hlines
    rw [Bool.not_eq_false] at hqueued
    rw [if_pos hqueued, hnone.mpr hlines, Option.none_or] at hinstall
    cases hstale : before.curl.httpHeader with
    | none => exact absurd (hoption.cleared.mp hstale) hf
    | some list =>
      rw [hstale] at hinstall
      refine ⟨⟨fun he => ?_, fun hc => absurd hc hcond⟩, ⟨fun he => ?_, fun hc => absurd hc hcond⟩⟩
      · rw [hinstall, hnone.mpr hlines] at he
        cases he
      · rw [Easy.sentHeaders, hinstall, hlines] at he
        exact absurd he (hoption.lines list hstale)

end

/-- A download behind an upload and a deletion. -/
def putDeleteGet : List Call :=
  [⟨.put { url := "http://h/a".toList, bufferIn := "new".toList, contentType := "text/plain".toList },
      succeeds "ok".toList⟩,
    ⟨.delete { url := "http://h/a".toList }, succeeds "gone".toList⟩,
    ⟨.get { url := "http://h/b".toList }, succeeds "data".toList⟩]

/-- It sends no headers, since the `Delete` has cleared the list of the `Put`. -/
theorem run_headers_cleared :
    ∃ record, (run .common plainClient putDeleteGet)[2]? = some record ∧
      ListCleared (operations (putDeleteGet.take 2)) ∧ record.started.client.curl.sentHeaders = [] := by
  have hcleared : ListCleared (operations (putDeleteGet.take 2)) :=
    (followed_concat (operations (putDeleteGet.take 1)) (.delete { url := "http://h/a".toList })).mpr
      ⟨.inr ⟨rfl, rfl⟩, not_not_intro rfl⟩
  have hheaders := run_headers_iff .common (fun _ => false) {} putDeleteGet 2 _ rfl
  exact ⟨_, rfl, hcleared, hheaders.2.mpr (.inr (.inr hcleared))⟩

/-- The range of one `Get` is sent again by the next, which asked for none. -/
theorem run_range_leaks :
    ∃ record, (run .common plainClient
        [⟨.get { url := "http://h/a".toList,
                 headers := HeaderMap.insert HeaderMap.empty "Range".toList "bytes=0-9".toList },
            succeeds "data".toList⟩,
          ⟨.get { url := "http://h/b".toList }, succeeds "data".toList⟩])[1]? = some record ∧
      record.call.op.headerLines = [] ∧
      record.started.client.curl.httpHeader = some ⟨0, ["Range: bytes=0-9".toList]⟩ ∧
      record.started.client.curl.sentHeaders = ["Range: bytes=0-9".toList] :=
  ⟨_, rfl, rfl, rfl, rfl⟩

end CurlHttpfs.Client
