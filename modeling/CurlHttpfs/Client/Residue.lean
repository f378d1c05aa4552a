import CurlHttpfs.Http.Transcript
import CurlHttpfs.Client.Routing

/-!
# What a blocking call leaves in the client

`Put`, `Post` and `Delete` share one `RequestInfo`. A successful call resets
it, a failed one returns before the reset, so whatever a failed transfer
delivered is still there when the next one starts. A sequence of blocking
calls is isolated exactly when no failed transfer delivered anything that
lasts.
-/

namespace CurlHttpfs.Client

open Http Curl

/-! ## The residue of one transfer -/

/-- The body bytes of a transfer. -/
def bodyBytes : List TransferEvent → Str
  | [] => []
  | .header _ :: events => bodyBytes events
  | .body d :: events => d.contents ++ bodyBytes events

/-- Some header line of the transfer is a status line. -/
def hasStatusLine : List TransferEvent → Bool
  | [] => false
  | .header d :: events => isStatusLine (trimLineEnd d.contents) || hasStatusLine events
  | .body _ :: events => hasStatusLine events

/-- No header line throws: its first colon is not its last character, and a
field line comes behind a status line. -/
def Accepted (opened : Bool) : List TransferEvent → Prop
  | [] => True
  | .header d :: events =>
    ¬EndsInFirstColon (trimLineEnd d.contents) ∧
      (opened = true ∨ isStatusLine (trimLineEnd d.contents) = true ∨ ':' ∉ trimLineEnd d.contents) ∧
      Accepted (opened || isStatusLine (trimLineEnd d.contents)) events
  | .body _ :: events => Accepted opened events

/-- A transfer after which nothing lasts: it succeeded, or it delivered
neither body bytes nor a status line. -/
def LeavesNothing (outcome : Outcome) : Prop :=
  outcome.result = curleOk ∨ bodyBytes outcome.events = [] ∧ hasStatusLine outcome.events = false

section

variable [HeaderMap]

/-- The block opened by a line, if it opens one. -/
theorem openBlock_eq_nil {collection : List HTTPHeaders} {header : Str} :
    openBlock collection header = [] ↔ collection = [] ∧ isStatusLine header = false := by
  unfold openBlock
  by_cases hs : isStatusLine header = true
  · rw [if_pos hs, hs]
    simp only [List.append_eq_nil_iff, List.cons_ne_nil, and_false, reduceCtorEq]
  · rw [if_neg hs, Bool.eq_false_iff.mpr hs]
    exact ⟨fun h => ⟨h, rfl⟩, And.left⟩

/-- When the decoder takes a line, and when it leaves the collection empty. -/
theorem collectHeader_residue (collection : List HTTPHeaders) (line : Str) :
    ((∃ c, collectHeader collection line = .ok c) ↔ ¬EndsInFirstColon (trimLineEnd line) ∧
      (collection ≠ [] ∨ isStatusLine (trimLineEnd line) = true ∨ ':' ∉ trimLineEnd line)) ∧
    ∀ c, collectHeader collection line = .ok c →
      (c = [] ↔ collection = [] ∧ isStatusLine (trimLineEnd line) = false) := by
  by_cases hopen : collection ≠ [] ∨ isStatusLine (trimLineEnd line) = true
  · obtain ⟨hbad, hgood⟩ := collectHeader_cases hopen
    have hnot : ¬(collection = [] ∧ isStatusLine (trimLineEnd line) = false) := by
      intro hempty
      rcases hopen with hne | hs
      · exact hne hempty.1
      · exact absurd (hs.symm.trans hempty.2) (by decide)
    by_cases hcolon : EndsInFirstColon (trimLineEnd line)
    · rw [hbad hcolon]
      exact ⟨⟨nofun, fun h => absurd hcolon h.1⟩, nofun⟩
    · obtain ⟨c, hc, hne⟩ := hgood hcolon
      rw [hc]
      refine ⟨⟨fun _ => ⟨hcolon, or_assoc.mp (.inl hopen)⟩, fun _ => ⟨c, rfl⟩⟩, ?_⟩
      intro c' he
      obtain rfl := Except.ok.inj he
      exact ⟨fun h => absurd h hne, fun h => absurd h hnot⟩
  · -- no block is open, so only a line without a colon is taken
    obtain ⟨hempty, hs⟩ := not_or.mp hopen
    have hempty := not_not.mp hempty
    have hs := Bool.eq_false_iff.mpr hs
    have hblock := openBlock_eq_nil.mpr ⟨hempty, hs⟩
    rcases colon_split (trimLineEnd line) with hplain | ⟨name, rest, hname, hsplit⟩
    · rw [collectHeader_plain hplain]
      have hcolon : ¬EndsInFirstColon (trimLineEnd line) := by
        intro ⟨name, _, he⟩
        exact hplain (he ▸ List.mem_append_right _ (List.mem_singleton_self _))
      refine ⟨⟨fun _ => ⟨hcolon, .inr (.inr hplain)⟩, fun _ => ⟨_, rfl⟩⟩, ?_⟩
      intro c he
      rw [← Except.ok.inj he]
      exact openBlock_eq_nil
    · have hfault : ∃ fault, collectHeader collection line = .error fault := by
        rw [collectHeader_field hname hsplit, hblock]
        cases rest with
        | nil => exact ⟨_, rfl⟩
        | cons c rest => exact ⟨_, rfl⟩
      obtain ⟨fault, hfault⟩ := hfault
      rw [hfault]
      refine ⟨⟨nofun, ?_⟩, nofun⟩
      intro ⟨_, htaken⟩
      rcases htaken with hne | hstatus | hplain
      · exact absurd hempty hne
      · exact absurd (hstatus.symm.trans hs) (by decide)
      · exact absurd (hsplit ▸ List.mem_append_right _ List.mem_cons_self) hplain

/-- What one callback of a blocking call does to the two fields that last. -/
theorem receiveOwn_header {info : RequestInfo} {d : Delivery} :
    receiveOwn info (.header d) = (collectHeader info.headerCollection d.contents).map fun c =>
      { info with headerCollection := c } := by
  simp only [receiveOwn, requestHeaderCallback, Delivery.take_total]
  cases collectHeader info.headerCollection d.contents <;> rfl

theorem receiveOwn_body {info : RequestInfo} {d : Delivery} :
    receiveOwn info (.body d) = .ok { info with body := info.body ++ d.contents } := by
  simp only [receiveOwn, requestWriteCallback, Delivery.take_total]
  rfl

/-- A whole transfer: when it is taken, and what it leaves. -/
theorem foldlM_receiveOwn_residue (events : List TransferEvent) (info : RequestInfo) {opened : Bool}
    (hopened : opened = true ↔ info.headerCollection ≠ []) :
    ((∃ left, events.foldlM receiveOwn info = .ok left) ↔ Accepted opened events) ∧
    ∀ left, events.foldlM receiveOwn info = .ok left →
      left.body = info.body ++ bodyBytes events ∧
      (left.headerCollection = [] ↔ info.headerCollection = [] ∧ hasStatusLine events = false) := by
  induction events generalizing info opened with
  | nil =>
    refine ⟨⟨fun _ => trivial, fun _ => ⟨info, rfl⟩⟩, ?_⟩
    intro left he
    obtain rfl := Except.ok.inj he
    exact ⟨(List.append_nil _).symm, ⟨fun h => ⟨h, rfl⟩, And.left⟩⟩
  | cons event events ih =>
    rw [List.foldlM_cons]
    cases event with
    | header d =>
      obtain ⟨htaken, hleft⟩ := collectHeader_residue info.headerCollection d.contents
      rw [receiveOwn_header, Accepted, ← and_assoc, hopened, ← htaken]
      cases hc : collectHeader info.headerCollection d.contents with
      | error fault => exact ⟨⟨nofun, nofun⟩, nofun⟩
      | ok c =>
        have hc' := hleft c hc
        have hnext : (opened || isStatusLine (trimLineEnd d.contents)) = true ↔ c ≠ [] := by
          rw [Bool.or_eq_true, hopened, ne_eq, ne_eq, hc', not_and_or, Bool.not_eq_false]
        obtain ⟨hok, hrest⟩ := ih { info with headerCollection := c } hnext
        refine ⟨⟨fun h => ⟨⟨c, rfl⟩, hok.mp h⟩, fun h => hok.mpr h.2⟩, ?_⟩
        intro left he
        obtain ⟨hbody, hheaders⟩ := hrest left he
        refine ⟨hbody, hheaders.trans ?_⟩
        rw [hc', hasStatusLine, Bool.or_eq_false_iff, and_assoc]
    | body d =>
      rw [receiveOwn_body]
      obtain ⟨hok, hrest⟩ := ih { info with body := info.body ++ d.contents } hopened
      refine ⟨hok, ?_⟩
      intro left he
      obtain ⟨hbody, hheaders⟩ := hrest left he
      exact ⟨hbody.trans (List.append_assoc _ _ _), hheaders⟩

/-- The stale status code of an earlier call takes no part in a transfer. -/
theorem foldlM_receiveOwn_responseCode (events : List TransferEvent) (info : RequestInfo)
    (code : UInt16) :
    events.foldlM receiveOwn { info with responseCode := code } =
      (events.foldlM receiveOwn info).map fun left => { left with responseCode := code } := by
  induction events generalizing info with
  | nil => rfl
  | cons event events ih =>
    rw [List.foldlM_cons, List.foldlM_cons]
    cases event with
    | header d =>
      rw [receiveOwn_header, receiveOwn_header]
      cases collectHeader info.headerCollection d.contents with
      | error fault => rfl
      | ok c => exact ih { info with headerCollection := c }
    | body d =>
      rw [receiveOwn_body, receiveOwn_body]
      exact ih { info with body := info.body ++ d.contents }

/-! ## Sequences of blocking calls -/

/-- The URL of an operation. -/
def Operation.url : Operation → Str
  | .get info => info.url
  | .head info => info.url
  | .put info => info.url
  | .delete info => info.url
  | .post info => info.url

/-- A client on which the next blocking call finds its own callbacks and an
empty target. -/
structure Clean (client : MultiCurlClient) : Prop where
  /-- The client's own callbacks are installed. -/
  routed : RoutedToClient client.curl
  /-- No body bytes are left. -/
  body : client.requestInfo.body = []
  /-- No header block is left. -/
  headers : client.requestInfo.headerCollection = []

theorem clean_init (fileExists : Str → Bool) (params : HTTPFSParams) :
    Clean (initClient fileExists params) := ⟨⟨rfl, rfl, rfl, rfl⟩, rfl, rfl⟩

/-- A blocking call only stores its URL before the transfer. -/
theorem start_blocking_info (client : MultiCurlClient) {op : Operation} (hop : op.kind.queued = false) :
    (start client op).client.requestInfo = { client.requestInfo with url := op.url } := by
  cases op with
  | get info | head info => cases hop
  | put info | delete info | post info => rfl

/-- What a finished blocking call gives its caller is decided by its own
transfer when the target was empty. -/
theorem complete_clean (lib : Library) {client other : MultiCurlClient} {op : Operation}
    (outcome : Outcome) (hop : op.kind.queued = false) (h : Clean client) (ho : Clean other) :
    (complete lib (start client op) op outcome).map Prod.snd =
      (complete lib (start other op) op outcome).map Prod.snd := by
  have hinfo (c : MultiCurlClient) (hc : Clean c) : (start c op).client.requestInfo =
      { ({ url := op.url } : RequestInfo) with responseCode := c.requestInfo.responseCode } := by
    simp only [start_blocking_info c hop, hc.body, hc.headers]
  rw [complete_blocking lib outcome hop h.routed, complete_blocking lib outcome hop ho.routed,
    hinfo client h, hinfo other ho, foldlM_receiveOwn_responseCode, foldlM_receiveOwn_responseCode]
  cases outcome.events.foldlM receiveOwn ({ url := op.url } : RequestInfo) with
  | error fault => rfl
  | ok left => simp only [Except.map, finishBlocking, transformResponseCurl]

/-- A blocking call on a clean client is taken exactly when no header line
throws, and leaves the client clean exactly when nothing lasts. -/
theorem complete_residue (lib : Library) {client : MultiCurlClient} {op : Operation}
    (outcome : Outcome) (hop : op.kind.queued = false) (h : Clean client) :
    ((∃ next answer, complete lib (start client op) op outcome = .ok (next, answer)) ↔
      Accepted false outcome.events) ∧
    ∀ next answer, complete lib (start client op) op outcome = .ok (next, answer) →
      RoutedToClient next.curl ∧
      (next.requestInfo.body = [] ∧ next.requestInfo.headerCollection = [] ↔ LeavesNothing outcome) := by
  have hinfo := start_blocking_info client hop
  have hheaders : (start client op).client.requestInfo.headerCollection = [] := by
    rw [hinfo]
    exact h.headers
  have hbody : (start client op).client.requestInfo.body = [] := by
    rw [hinfo]
    exact h.body
  have hopened : false = true ↔ (start client op).client.requestInfo.headerCollection ≠ [] :=
    ⟨nofun, fun hne => absurd hheaders hne⟩
  obtain ⟨hok, hleft⟩ := foldlM_receiveOwn_residue outcome.events _ hopened
  rw [complete_blocking lib outcome hop h.routed, ← hok]
  generalize hend : (fun info => finishBlocking lib
    { (start client op).client with requestInfo := info } (decide (op.kind = .post)) outcome) = finish
  cases hfold : outcome.events.foldlM receiveOwn (start client op).client.requestInfo with
  | error fault =>
    simp only [Except.map, reduceCtorEq, exists_false, false_implies, implies_true, and_self]
  | ok left =>
    refine ⟨⟨fun _ => ⟨left, rfl⟩, fun _ => ⟨_, _, rfl⟩⟩, ?_⟩
    intro next answer he
    have hnext : (finish left).1 = next := congrArg Prod.fst (Except.ok.inj he)
    rw [← hnext, ← hend]
    refine ⟨(start_blocking_route hop).mpr h.routed, ?_⟩
    obtain ⟨hb, hc⟩ := hleft left hfold
    rw [hbody, List.nil_append] at hb
    unfold LeavesNothing
    change (transformResponseCurl lib _ outcome.result).2.body = [] ∧
      (transformResponseCurl lib _ outcome.result).2.headerCollection = [] ↔ _
    by_cases hres : outcome.result = curleOk
    · rw [hres, transformResponseCurl_ok]
      exact iff_of_true ⟨rfl, rfl⟩ (.inl rfl)
    · rw [transformResponseCurl_failed hres]
      simp only [hres, false_or, hb, hc, hheaders, true_and]

/-- Every call but the last leaves nothing behind. A call whose transfer
throws has no successor. -/
def CleanHistory : List Call → Prop
  | [] => True
  | [_] => True
  | call :: next :: calls =>
    Accepted false call.outcome.events → LeavesNothing call.outcome ∧ CleanHistory (next :: calls)

/-- A started call finds an empty target and is answered as on a fresh client. -/
structure Isolated (lib : Library) (fileExists : Str → Bool) (params : HTTPFSParams)
    (record : Record) : Prop where
  /-- No body bytes of another transfer. -/
  body : record.started.client.requestInfo.body = []
  /-- No header block of another transfer. -/
  headers : record.started.client.requestInfo.headerCollection = []
  /-- Response and `buffer_out` are those of a fresh client. -/
  answer : record.result =
    (complete lib (start (initClient fileExists params) record.call.op) record.call.op
      record.call.outcome).map Prod.snd

/-- The first call on a clean client is isolated. -/
theorem isolated_of_clean {lib : Library} (fileExists : Str → Bool) (params : HTTPFSParams)
    {client : MultiCurlClient} {call : Call} {result : Except Fault Answer} (h : Clean client)
    (hop : call.op.kind.queued = false)
    (hresult : result = (complete lib (start client call.op) call.op call.outcome).map Prod.snd) :
    Isolated lib fileExists params ⟨call, start client call.op, result⟩ := by
  have hinfo := start_blocking_info client hop
  refine ⟨hinfo ▸ h.body, hinfo ▸ h.headers, hresult.trans ?_⟩
  exact complete_clean lib call.outcome hop h (clean_init fileExists params)

/-- The next call starts with what the previous one left. -/
theorem run_head_target (lib : Library) (client : MultiCurlClient) {call : Call} (calls : List Call)
    (hop : call.op.kind.queued = false) :
    ∃ record ∈ run lib client (call :: calls),
      record.started.client.requestInfo = { client.requestInfo with url := call.op.url } := by
  have hinfo := start_blocking_info client hop
  cases hc : complete lib (start client call.op) call.op call.outcome with
  | error fault =>
    rw [run_cons_error calls hc]
    exact ⟨⟨call, start client call.op, .error fault⟩, List.mem_singleton_self _, hinfo⟩
  | ok done =>
    rw [run_cons_ok calls hc]
    exact ⟨⟨call, start client call.op, .ok done.2⟩, List.mem_cons_self, hinfo⟩

/-- Isolation of a run from any clean client. -/
theorem run_clean_iff (lib : Library) (fileExists : Str → Bool) (params : HTTPFSParams)
    {client : MultiCurlClient} (hclean : Clean client) (calls : List Call)
    (hops : ∀ call ∈ calls, call.op.kind.queued = false) :
    (∀ record ∈ run lib client calls, Isolated lib fileExists params record) ↔ CleanHistory calls := by
  induction calls generalizing client with
  | nil => exact ⟨fun _ => trivial, fun _ _ hr => absurd hr List.not_mem_nil⟩
  | cons call calls ih =>
    have hop := hops call List.mem_cons_self
    have hrest : ∀ c ∈ calls, c.op.kind.queued = false :=
      fun c hc => hops c (List.mem_cons_of_mem _ hc)
    obtain ⟨htaken, hleft⟩ := complete_residue lib call.outcome hop hclean
    cases hc : complete lib (start client call.op) call.op call.outcome with
    | error fault =>
      have hfirst : Isolated lib fileExists params ⟨call, start client call.op, .error fault⟩ :=
        isolated_of_clean fileExists params hclean hop (by rw [hc]; rfl)
      have hthrows : ¬Accepted false call.outcome.events := by
        intro ha
        obtain ⟨next, answer, he⟩ := htaken.mpr ha
        cases hc.symm.trans he
      rw [run_cons_error calls hc]
      constructor
      · intro _
        cases calls with
        | nil => trivial
        | cons next calls => exact fun ha => absurd ha hthrows
      · intro _ record hr
        exact List.mem_singleton.mp hr ▸ hfirst
    | ok done =>
      have hfirst : Isolated lib fileExists params ⟨call, start client call.op, .ok done.2⟩ :=
        isolated_of_clean fileExists params hclean hop (by rw [hc]; rfl)
      obtain ⟨hroute, hnothing⟩ := hleft done.1 done.2 hc
      have ha : Accepted false call.outcome.events := htaken.mp ⟨done.1, done.2, hc⟩
      rw [run_cons_ok calls hc, List.forall_mem_cons]
      cases calls with
      | nil => exact ⟨fun _ => trivial, fun _ => ⟨hfirst, fun _ hr => absurd hr List.not_mem_nil⟩⟩
      | cons next calls =>
        constructor
        · intro hall _
          -- the next call starts on what this one left
          obtain ⟨record, hr, htarget⟩ :=
            run_head_target lib done.1 calls (hrest next List.mem_cons_self)
          have hiso := hall.2 record hr
          have hbody : done.1.requestInfo.body = [] := by
            have hb := hiso.body
            rwa [htarget] at hb
          have hheaders : done.1.requestInfo.headerCollection = [] := by
            have hh := hiso.headers
            rwa [htarget] at hh
          exact ⟨hnothing.mp ⟨hbody, hheaders⟩, (ih ⟨hroute, hbody, hheaders⟩ hrest).mp hall.2⟩
        · intro hhistory
          obtain ⟨hn, htail⟩ := hhistory ha
          obtain ⟨hbody, hheaders⟩ := hnothing.mpr hn
          exact ⟨hfirst, (ih ⟨hroute, hbody, hheaders⟩ hrest).mpr htail⟩

/-- In every sequence of `Put`, `Post` and `Delete` calls on one initialized
client, every transfer starts on an empty target and is answered from what it
delivered itself if and only if every transfer but the last succeeded or
delivered neither body bytes nor a status line. -/
theorem run_isolated_iff (lib : Library) (fileExists : Str → Bool) (params : HTTPFSParams)
    (calls : List Call) (hops : ∀ call ∈ calls, call.op.kind.queued = false) :
    (∀ record ∈ run lib (initClient fileExists params) calls,
      Isolated lib fileExists params record) ↔ CleanHistory calls :=
  run_clean_iff lib fileExists params (clean_init fileExists params) calls hops

end

/-- A failed call that delivered nothing leaves a second call isolated. -/
theorem run_isolated_refused :
    ∃ refused answered, run .common plainClient
        [⟨.delete { url := "http://h/a".toList }, ⟨[], 0, 7⟩⟩,
          ⟨.delete { url := "http://h/a".toList }, succeeds "gone".toList⟩] = [refused, answered] ∧
      Isolated .common (fun _ => false) {} refused ∧
      Isolated .common (fun _ => false) {} answered := by
  have hall := (run_isolated_iff .common (fun _ => false) {}
    [⟨.delete { url := "http://h/a".toList }, ⟨[], 0, 7⟩⟩,
      ⟨.delete { url := "http://h/a".toList }, succeeds "gone".toList⟩]
    (List.forall_mem_cons.mpr ⟨rfl, List.forall_mem_singleton.mpr rfl⟩)).mpr
    fun _ => ⟨.inr ⟨rfl, rfl⟩, trivial⟩
  exact ⟨_, _, rfl, hall _ List.mem_cons_self, hall _ (List.mem_cons_of_mem _ List.mem_cons_self)⟩

/-- A `Put` that timed out behind part of a body puts that part in front of
the next answer. -/
theorem run_put_after_timeout :
    ∃ record answer, (run .common plainClient
        [⟨.put { url := "http://h/a".toList, bufferIn := "new".toList, contentType := "text/plain".toList },
            ⟨[.body (.ofLine "par".toList)], 200, 28⟩⟩,
          ⟨.put { url := "http://h/a".toList, bufferIn := "new".toList, contentType := "text/plain".toList },
            succeeds "ok".toList⟩])[1]? = some record ∧
      record.started.client.requestInfo.body = "par".toList ∧
      record.result = .ok answer ∧ answer.response.body = "parok".toList ∧
      ¬Isolated .common (fun _ => false) {} record := by
  refine ⟨_, _, rfl, rfl, rfl, rfl, ?_⟩
  intro hisolated
  exact absurd hisolated.body (List.cons_ne_nil _ _)

end CurlHttpfs.Client
