import CurlHttpfs.Client.Operations

/-!
# Where transfers write

The callbacks of a queued call live as long as its `CurlRequest`; those of a
blocking call belong to the client. Only queued calls install callbacks
again, so a blocking call finds its own callbacks exactly as long as no
queued call came before it.
-/

namespace CurlHttpfs.Client

open Http Curl

/-! ## Routes -/

/-- The callbacks write the request of the given name. -/
structure RoutedToRequest (easy : Easy) (object : ObjectId) : Prop where
  headerFunction : easy.headerFunction = some .writeHeader
  headerData : easy.headerData = some (.curlRequest object)
  writeFunction : easy.writeFunction = some .writeBody
  writeData : easy.writeData = some (.curlRequest object)

/-- The callbacks write the client's own `RequestInfo`. -/
structure RoutedToClient (easy : Easy) : Prop where
  headerFunction : easy.headerFunction = some .requestHeaderCallback
  headerData : easy.headerData = some .headerCollection
  writeFunction : easy.writeFunction = some .requestWriteCallback
  writeData : easy.writeData = some .body

/-- No handle is routed to both. -/
theorem RoutedToRequest.not_client {easy : Easy} {object : ObjectId} (h : RoutedToRequest easy object) :
    ¬RoutedToClient easy := by
  intro hc
  have he := h.headerData.symm.trans hc.headerData
  cases he

/-- Setting or leaving a header list does not move the callbacks. -/
theorem setHeaders_route {easy : Easy} {object : ObjectId} (headers : Option SList)
    (h : RoutedToRequest easy object) :
    RoutedToRequest (CurlRequest.setHeaders headers easy) object := by
  rw [CurlRequest.setHeaders_eq]
  exact ⟨h.headerFunction, h.headerData, h.writeFunction, h.writeData⟩

/-- Switching the body on or off does not move the callbacks. -/
theorem setNoBody_route {easy : Easy} {object : ObjectId} (on : Bool)
    (h : RoutedToRequest easy object) : RoutedToRequest (easy.setNoBody on) object := by
  cases on <;> exact ⟨h.headerFunction, h.headerData, h.writeFunction, h.writeData⟩

section

variable [HeaderMap]

/-! ## Calls in sequence -/

/-- Whatever the handlers decide, the end of `Get` only counts bytes. -/
theorem finishGet_client (client : MultiCurlClient) (info : GetRequestInfo) (response : HTTPResponse) :
    (finishGet client info response).1 =
      client.count fun s => { s with totalBytesReceived := s.totalBytesReceived + response.body.length } := by
  simp only [finishGet, apply_ite Prod.fst, ite_self]

/-- The handlers of a `Get` do not change its response. -/
theorem finishGet_response (client : MultiCurlClient) (info : GetRequestInfo) (response : HTTPResponse) :
    (finishGet client info response).2.response = response := by
  unfold finishGet
  split <;> rfl

/-- The end of a call writes no option of the handle and allocates nothing. -/
theorem complete_options {lib : Library} {started : Started} {op : Operation} {outcome : Outcome}
    {client : MultiCurlClient} {answer : Answer}
    (h : complete lib started op outcome = .ok (client, answer)) :
    client.curl = started.client.curl ∧ client.nextObject = started.client.nextObject := by
  unfold complete at h
  cases ht : transfer started.client.curl
      ⟨started.request.map fun request => (started.object, request.info), started.client.requestInfo⟩
      outcome.events with
  | error fault =>
    rw [ht] at h
    cases h
  | ok memory =>
    rw [ht] at h
    cases op with
    | get info =>
      have he := congrArg Prod.fst (Except.ok.inj h)
      rw [finishGet_client] at he
      have hcurl := congrArg MultiCurlClient.curl he
      have hobject := congrArg MultiCurlClient.nextObject he
      exact ⟨hcurl.symm, hobject.symm⟩
    | head info | put info | delete info | post info =>
      have he := congrArg Prod.fst (Except.ok.inj h)
      have hcurl := congrArg MultiCurlClient.curl he
      have hobject := congrArg MultiCurlClient.nextObject he
      exact ⟨hcurl.symm, hobject.symm⟩

theorem run_cons_error {lib : Library} {client : MultiCurlClient} {call : Call} {fault : Fault}
    (calls : List Call) (h : complete lib (start client call.op) call.op call.outcome = .error fault) :
    run lib client (call :: calls) = [⟨call, start client call.op, .error fault⟩] := by
  simp only [run, h]

theorem run_cons_ok {lib : Library} {client : MultiCurlClient} {call : Call}
    {done : MultiCurlClient × Answer} (calls : List Call)
    (h : complete lib (start client call.op) call.op call.outcome = .ok done) :
    run lib client (call :: calls) =
      ⟨call, start client call.op, .ok done.2⟩ :: run lib done.1 calls := by
  simp only [run, h]

/-- The first record of a sequence is that of its first call. -/
theorem run_zero (lib : Library) (client : MultiCurlClient) (call : Call) (calls : List Call) :
    (run lib client (call :: calls))[0]? = some ⟨call, start client call.op,
      (complete lib (start client call.op) call.op call.outcome).map Prod.snd⟩ := by
  cases hc : complete lib (start client call.op) call.op call.outcome with
  | error fault =>
    rw [run_cons_error calls hc]
    rfl
  | ok done =>
    rw [run_cons_ok calls hc]
    rfl

/-- A later record exists when the first call has returned, and is one of the
sequence that goes on with the client it left. -/
theorem run_succ {lib : Library} {client : MultiCurlClient} {call : Call} {calls : List Call} {i : Nat}
    {record : Record} (h : (run lib client (call :: calls))[i + 1]? = some record) :
    ∃ next answer, complete lib (start client call.op) call.op call.outcome = .ok (next, answer) ∧
      (run lib next calls)[i]? = some record := by
  cases hc : complete lib (start client call.op) call.op call.outcome with
  | error fault =>
    rw [run_cons_error calls hc, List.getElem?_cons_succ, List.getElem?_nil] at h
    cases h
  | ok done =>
    rw [run_cons_ok calls hc, List.getElem?_cons_succ] at h
    exact ⟨done.1, done.2, rfl, h⟩

/-- What every started call of a sequence has in common: it starts from a
client that the earlier calls led to. The rule carries a property of the
client along those earlier calls. -/
theorem run_history {lib : Library} {I : List Call → MultiCurlClient → Prop}
    (hkeep : ∀ earlier client call next answer, I earlier client →
      complete lib (start client call.op) call.op call.outcome = .ok (next, answer) →
      I (earlier ++ [call]) next)
    {calls : List Call} (earlier : List Call) {client : MultiCurlClient} (hI : I earlier client)
    {i : Nat} {record : Record} (h : (run lib client calls)[i]? = some record) :
    ∃ before, I (earlier ++ calls.take i) before ∧
      record.started = start before record.call.op ∧
      record.result =
        (complete lib record.started record.call.op record.call.outcome).map Prod.snd := by
  induction calls generalizing earlier client i with
  | nil => exact absurd h (by simp only [run, List.getElem?_nil, reduceCtorEq, not_false_eq_true])
  | cons call calls ih =>
    cases i with
    | zero =>
      rw [run_zero] at h
      obtain rfl := Option.some.inj h
      refine ⟨client, ?_, rfl, rfl⟩
      simpa only [List.take_zero, List.append_nil] using hI
    | succ i =>
      obtain ⟨next, answer, hc, hrecord⟩ := run_succ h
      obtain ⟨before, hbefore, hrest⟩ := ih _ (hkeep earlier client call next answer hI hc) hrecord
      refine ⟨before, ?_, hrest⟩
      simpa only [List.take_succ_cons, List.append_assoc, List.cons_append, List.nil_append]
        using hbefore

/-! ## One transfer -/

/-- One callback of a blocking call, on the client's own object. -/
def receiveOwn (info : RequestInfo) : TransferEvent → Except Fault RequestInfo
  | .header d => (requestHeaderCallback d info.headerCollection).map fun written =>
      { info with headerCollection := written.2 }
  | .body d => (requestWriteCallback d info.body).map fun written => { info with body := written.2 }

/-- A transfer routed to a live request fills that request and nothing else. -/
theorem transfer_request {easy : Easy} {object : ObjectId} (hroute : RoutedToRequest easy object)
    (info own : RequestInfo) (events : List TransferEvent) :
    transfer easy ⟨some (object, info), own⟩ events =
      (events.foldlM receiveRequest info).map fun info => ⟨some (object, info), own⟩ := by
  induction events generalizing info with
  | nil => rfl
  | cons event events ih =>
    have hone : deliver easy ⟨some (object, info), own⟩ event =
        (receiveRequest info event).map fun info => ⟨some (object, info), own⟩ := by
      cases event with
      | header d =>
        simp only [deliver, hroute.headerFunction, hroute.headerData, Memory.onRequest, if_true,
          receiveRequest]
        cases writeHeader d info <;> rfl
      | body d =>
        simp only [deliver, hroute.writeFunction, hroute.writeData, Memory.onRequest, if_true,
          receiveRequest]
        rfl
    unfold transfer at ih ⊢
    rw [List.foldlM_cons, List.foldlM_cons, hone]
    cases receiveRequest info event with
    | error fault => rfl
    | ok info => exact ih info

/-- A transfer routed to the client fills the client's object and nothing else. -/
theorem transfer_client {easy : Easy} (hroute : RoutedToClient easy)
    (request : Option (ObjectId × RequestInfo)) (own : RequestInfo) (events : List TransferEvent) :
    transfer easy ⟨request, own⟩ events =
      (events.foldlM receiveOwn own).map fun own => ⟨request, own⟩ := by
  induction events generalizing own with
  | nil => rfl
  | cons event events ih =>
    have hone : deliver easy ⟨request, own⟩ event =
        (receiveOwn own event).map fun own => ⟨request, own⟩ := by
      cases event with
      | header d =>
        simp only [deliver, hroute.headerFunction, hroute.headerData, receiveOwn]
        cases requestHeaderCallback d own.headerCollection <;> rfl
      | body d =>
        simp only [deliver, hroute.writeFunction, hroute.writeData, receiveOwn]
        rfl
    unfold transfer at ih ⊢
    rw [List.foldlM_cons, List.foldlM_cons, hone]
    cases receiveOwn own event with
    | error fault => rfl
    | ok own => exact ih own

/-- Both pairs of callbacks do the same to the object they write. -/
theorem receiveOwn_eq : receiveOwn = receiveRequest := by
  funext info event
  cases event with
  | header d =>
    simp only [receiveOwn, receiveRequest, requestHeaderCallback, writeHeader]
    cases collectHeader info.headerCollection (d.contents.take (d.size * d.nmemb)) <;> rfl
  | body d => rfl

/-- The faults of a whole transfer are faults of one of its callbacks. -/
theorem foldlM_receive_fault {info : RequestInfo} {events : List TransferEvent} {fault : Fault}
    (h : events.foldlM receiveRequest info = .error fault) :
    fault = .outOfRange ∨ fault = .emptyBack := by
  induction events generalizing info with
  | nil => cases h
  | cons event events ih =>
    rw [List.foldlM_cons] at h
    cases hone : receiveRequest info event with
    | error f =>
      rw [hone] at h
      have he : (Except.error f : Except Fault RequestInfo) = .error fault := h
      exact Except.error.inj he ▸ receiveRequest_fault hone
    | ok info' =>
      rw [hone] at h
      exact ih h

/-! ## Which calls are routed -/

/-- A call has no effect on the route unless it is queued. -/
theorem start_blocking_route {client : MultiCurlClient} {op : Operation}
    (hop : op.kind.queued = false) :
    RoutedToClient (start client op).client.curl ↔ RoutedToClient client.curl := by
  cases op with
  | get info | head info => cases hop
  | put info | delete info | post info =>
    constructor
    · intro h
      exact ⟨h.headerFunction, h.headerData, h.writeFunction, h.writeData⟩
    · intro h
      exact ⟨h.headerFunction, h.headerData, h.writeFunction, h.writeData⟩

/-- A queued call routes its handle to the request it just created. -/
theorem start_queued_route (client : MultiCurlClient) {op : Operation}
    (hop : op.kind.queued = true) :
    RoutedToRequest (start client op).client.curl (start client op).object ∧
      (start client op).request.isSome = true := by
  have hinstall (object : ObjectId) (url : Str) (easy : Easy) :
      RoutedToRequest (CurlRequest.setUrlOption url (CurlRequest.install object easy)) object :=
    ⟨rfl, rfl, rfl, rfl⟩
  cases op with
  | get info => exact ⟨setNoBody_route false (setHeaders_route _ (hinstall _ _ _)), rfl⟩
  | head info => exact ⟨setNoBody_route true (setHeaders_route _ (hinstall _ _ _)), rfl⟩
  | put info | delete info | post info => cases hop

/-- The client's own callbacks are in place exactly until the first queued call. -/
theorem run_route {lib : Library} {fileExists : Str → Bool} {params : HTTPFSParams}
    {calls : List Call} {i : Nat} {record : Record}
    (h : (run lib (initClient fileExists params) calls)[i]? = some record) :
    ∃ before, (RoutedToClient before.curl ↔
        ∀ call ∈ calls.take i, call.op.kind.queued = false) ∧
      record.started = start before record.call.op ∧
      record.result =
        (complete lib record.started record.call.op record.call.outcome).map Prod.snd := by
  refine run_history (I := fun earlier client => RoutedToClient client.curl ↔
    ∀ call ∈ earlier, call.op.kind.queued = false) ?_ [] ?_ h
  · intro earlier client call next answer hI hc
    rw [(complete_options hc).1]
    have hall : (∀ c ∈ earlier ++ [call], c.op.kind.queued = false) ↔
        (∀ c ∈ earlier, c.op.kind.queued = false) ∧ call.op.kind.queued = false := by
      simp only [List.mem_append, List.mem_singleton, or_imp, forall_and, forall_eq]
    rw [hall]
    cases hop : call.op.kind.queued with
    | false => simpa only [and_true] using (start_blocking_route hop).trans hI
    | true =>
      have hroute := (start_queued_route client hop).1
      constructor
      · intro hclient
        exact absurd hclient hroute.not_client
      · intro hfalse
        exact absurd hfalse.2 (by decide)
  · constructor
    · intro _ call hcall
      exact absurd hcall List.not_mem_nil
    · intro _
      exact ⟨rfl, rfl, rfl, rfl⟩

/-! ## Every transfer writes where its operation reads -/

/-- The callbacks denote the live object the operation builds its response from. -/
def Record.Routed (record : Record) : Prop :=
  if record.call.op.kind.queued = true then
    RoutedToRequest record.started.client.curl record.started.object ∧
      record.started.request.isSome = true
  else RoutedToClient record.started.client.curl

/-- The response is built from the object the transfer's own callbacks filled. -/
def Record.AnswersItself (lib : Library) (record : Record) (answer : Answer) : Prop :=
  if record.call.op.kind.queued = true then
    ∃ request info, record.started.request = some request ∧
      record.call.outcome.events.foldlM receiveRequest request.info = .ok info ∧
      answer.response = checkMultiResponse lib
        { info with responseCode := UInt16.ofNat record.call.outcome.responseCode }
        record.call.outcome.result
  else
    ∃ info, record.call.outcome.events.foldlM receiveOwn record.started.client.requestInfo = .ok info ∧
      answer.response = (transformResponseCurl lib
        { info with responseCode := UInt16.ofNat record.call.outcome.responseCode }
        record.call.outcome.result).1

/-- A transfer writes where its operation reads. -/
structure WritesWhereItReads (lib : Library) (record : Record) : Prop where
  /-- The installed callbacks denote the operation's own live object. -/
  routed : record.Routed
  /-- No callback reaches a request that was erased. -/
  alive : record.result ≠ .error .useAfterFree
  /-- A response contains what was delivered during the call. -/
  answers : ∀ answer, record.result = .ok answer → record.AnswersItself lib answer

/-- A routed queued call is answered from its own request. -/
theorem complete_queued (lib : Library) (client : MultiCurlClient) {op : Operation} (outcome : Outcome)
    (hop : op.kind.queued = true) :
    (∀ fault, complete lib (start client op) op outcome = .error fault →
      fault = .outOfRange ∨ fault = .emptyBack) ∧
    ∀ next answer, complete lib (start client op) op outcome = .ok (next, answer) →
      ∃ request info, (start client op).request = some request ∧
        outcome.events.foldlM receiveRequest request.info = .ok info ∧
        answer.response = checkMultiResponse lib
          { info with responseCode := UInt16.ofNat outcome.responseCode } outcome.result := by
  obtain ⟨hroute, hsome⟩ := start_queued_route client hop
  obtain ⟨request, hrequest⟩ := Option.isSome_iff_exists.mp hsome
  have htransfer := transfer_request hroute request.info (start client op).client.requestInfo outcome.events
  unfold complete
  rw [hrequest, Option.map_some, htransfer]
  cases hfold : outcome.events.foldlM receiveRequest request.info with
  | error f =>
    constructor
    · intro fault he
      have he : (Except.error f : Except Fault (MultiCurlClient × Answer)) = .error fault := he
      exact Except.error.inj he ▸ foldlM_receive_fault hfold
    · intro next answer he
      cases he
  | ok info =>
    constructor
    · intro fault he
      cases op with
      | get _ | head _ => cases he
      | put _ | delete _ | post _ => cases hop
    · intro next answer he
      refine ⟨request, info, rfl, hfold, ?_⟩
      cases op with
      | get get =>
        have hanswer := congrArg Prod.snd (Except.ok.inj he)
        rw [← show (finishGet _ get _).2 = answer from hanswer]
        simp only [finishGet, apply_ite Prod.snd, apply_ite Answer.response, ite_self]
      | head _ =>
        have hanswer := congrArg Prod.snd (Except.ok.inj he)
        exact congrArg Answer.response hanswer.symm
      | put _ | delete _ | post _ => cases hop

/-- A routed blocking call folds its callbacks over the client's own object and
builds the answer from the result. -/
theorem complete_blocking (lib : Library) {client : MultiCurlClient} {op : Operation} (outcome : Outcome)
    (hop : op.kind.queued = false) (hroute : RoutedToClient client.curl) :
    complete lib (start client op) op outcome =
      (outcome.events.foldlM receiveOwn (start client op).client.requestInfo).map fun info =>
        finishBlocking lib { (start client op).client with requestInfo := info }
          (decide (op.kind = .post)) outcome := by
  have htransfer := transfer_client ((start_blocking_route hop).mpr hroute)
    ((start client op).request.map fun request => ((start client op).object, request.info))
    (start client op).client.requestInfo outcome.events
  unfold complete
  rw [htransfer]
  cases outcome.events.foldlM receiveOwn (start client op).client.requestInfo with
  | error fault => rfl
  | ok info =>
    cases op with
    | get _ | head _ => cases hop
    | put _ | delete _ | post _ => rfl

/-- A routed blocking call is answered from the client's own object. -/
theorem blocking_answers (lib : Library) {client : MultiCurlClient} {op : Operation} (outcome : Outcome)
    (hop : op.kind.queued = false) (hroute : RoutedToClient client.curl) :
    (∀ fault, complete lib (start client op) op outcome = .error fault →
      fault = .outOfRange ∨ fault = .emptyBack) ∧
    ∀ next answer, complete lib (start client op) op outcome = .ok (next, answer) →
      ∃ info, outcome.events.foldlM receiveOwn (start client op).client.requestInfo = .ok info ∧
        answer.response = (transformResponseCurl lib
          { info with responseCode := UInt16.ofNat outcome.responseCode } outcome.result).1 := by
  rw [complete_blocking lib outcome hop hroute]
  cases hfold : outcome.events.foldlM receiveOwn (start client op).client.requestInfo with
  | error f =>
    constructor
    · intro fault he
      have he : (Except.error f : Except Fault (MultiCurlClient × Answer)) = .error fault := he
      exact Except.error.inj he ▸ foldlM_receive_fault (receiveOwn_eq ▸ hfold)
    · intro next answer he
      cases he
  | ok info =>
    constructor
    · intro fault he
      cases he
    · intro next answer he
      have hanswer := congrArg Prod.snd (Except.ok.inj he)
      exact ⟨info, rfl, congrArg Answer.response hanswer.symm⟩

/-- What a finished call records when its own callbacks were in place. -/
theorem WritesWhereItReads.of_complete {lib : Library} {record : Record}
    (hresult : record.result =
      (complete lib record.started record.call.op record.call.outcome).map Prod.snd)
    (hrouted : record.Routed)
    (hfault : ∀ fault, complete lib record.started record.call.op record.call.outcome = .error fault →
      fault = .outOfRange ∨ fault = .emptyBack)
    (hanswer : ∀ next answer,
      complete lib record.started record.call.op record.call.outcome = .ok (next, answer) →
      record.AnswersItself lib answer) : WritesWhereItReads lib record := by
  cases hc : complete lib record.started record.call.op record.call.outcome with
  | error fault =>
    rw [hc] at hresult
    refine ⟨hrouted, ?_, ?_⟩
    · intro hfreed
      have he : (Except.error fault : Except Fault Answer) = .error .useAfterFree :=
        hresult.symm.trans hfreed
      rcases hfault fault hc with rfl | rfl <;> cases he
    · intro answer ha
      cases hresult.symm.trans ha
  | ok done =>
    rw [hc] at hresult
    refine ⟨hrouted, ?_, ?_⟩
    · intro hfreed
      cases hresult.symm.trans hfreed
    · intro answer ha
      have he : (Except.ok done.2 : Except Fault Answer) = .ok answer := hresult.symm.trans ha
      exact hanswer done.1 answer (hc.trans (congrArg _ (Prod.ext rfl (Except.ok.inj he))))

/-- In every sequence of calls on one initialized client, a started call
writes where its operation reads exactly when it installs its own callbacks
or no call before it did: it is a `Get` or `Head`, or all earlier calls are
`Put`, `Post` or `Delete`. -/
theorem run_writesWhereItReads_iff (lib : Library) (fileExists : Str → Bool) (params : HTTPFSParams)
    (calls : List Call) (i : Nat) (record : Record)
    (h : (run lib (initClient fileExists params) calls)[i]? = some record) :
    WritesWhereItReads lib record ↔
      record.call.op.kind.queued = true ∨ ∀ call ∈ calls.take i, call.op.kind.queued = false := by
  obtain ⟨before, hroute, hstarted, hresult⟩ := run_route h
  cases hop : record.call.op.kind.queued with
  | true =>
    have hqueued := complete_queued lib before record.call.outcome hop
    rw [← hstarted] at hqueued
    refine ⟨fun _ => .inl rfl, fun _ => .of_complete hresult ?_ hqueued.1 ?_⟩
    · rw [Record.Routed, if_pos hop, hstarted]
      exact start_queued_route before hop
    · intro next answer hc
      rw [Record.AnswersItself, if_pos hop]
      exact hqueued.2 next answer hc
  | false =>
    have hnot : ¬record.call.op.kind.queued = true := hop ▸ Bool.false_ne_true
    have hown : RoutedToClient record.started.client.curl ↔ _ :=
      hstarted ▸ (start_blocking_route hop).trans hroute
    constructor
    · intro hwrites
      have hrouted := hwrites.routed
      rw [Record.Routed, if_neg hnot] at hrouted
      exact .inr (hown.mp hrouted)
    · intro hcond
      have hall := hcond.resolve_left Bool.false_ne_true
      have hblocking := blocking_answers lib record.call.outcome hop (hroute.mpr hall)
      rw [← hstarted] at hblocking
      refine .of_complete hresult ?_ hblocking.1 ?_
      · rw [Record.Routed, if_neg hnot]
        exact hown.mpr hall
      · intro next answer hc
        rw [Record.AnswersItself, if_neg hnot]
        exact hblocking.2 next answer hc

end

/-- A client without a certificate file on a host without any. -/
def plainClient : MultiCurlClient := initClient (fun _ => false) {}

/-- A transfer that succeeds with status 200 after the given body. -/
def succeeds (body : Str) : Outcome := ⟨[.body (.ofLine body)], 200, curleOk⟩

/-- A client that only deletes and uploads. -/
def deleteThenPost : List Call :=
  [⟨.delete { url := "http://h/a".toList }, succeeds "gone".toList⟩,
    ⟨.post { url := "http://h/b".toList, bufferIn := "new".toList }, succeeds "ok".toList⟩]

/-- Its second call writes where it reads. -/
theorem run_writesWhereItReads_blocking :
    ∃ record, (run .common plainClient deleteThenPost)[1]? = some record ∧
      (∀ call ∈ deleteThenPost.take 1, call.op.kind.queued = false) ∧ WritesWhereItReads .common record := by
  have hblocking : ∀ call ∈ deleteThenPost.take 1, call.op.kind.queued = false :=
    List.forall_mem_singleton.mpr rfl
  have hwrites := run_writesWhereItReads_iff .common (fun _ => false) {} deleteThenPost 1 _ rfl
  exact ⟨_, rfl, hblocking, hwrites.mpr (.inr hblocking)⟩

/-- A `Put` behind a `Get` writes into the destroyed request of the `Get`. -/
theorem run_put_after_get :
    ∃ record, (run .common plainClient
        [⟨.get { url := "http://h/a".toList }, succeeds "data".toList⟩,
          ⟨.put { url := "http://h/a".toList, bufferIn := "new".toList, contentType := "text/plain".toList },
            succeeds "ok".toList⟩])[1]? = some record ∧
      record.result = .error .useAfterFree ∧ ¬WritesWhereItReads .common record := by
  refine ⟨_, rfl, rfl, ?_⟩
  intro hwrites
  exact hwrites.alive rfl

end CurlHttpfs.Client
