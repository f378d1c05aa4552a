import CurlHttpfs.Manager.ExchangeInvariant

/-!
# Every request is handed over once

What the invariant says about runs of the exchange. Requests that were sent
occupy one place each, are handed to libcurl in the order in which they were
sent, and are answered once, from what the callbacks of their own transfer
collected.
-/

namespace CurlHttpfs.Manager

open Http Curl Transition

/-- The request the background thread has taken from the queue and not added yet. -/
def Focus.inHand : Focus → List RequestId
  | .held r | .adding _ r => [r]
  | _ => []

namespace Exchange

/-- A routed handle delivers every callback to the request. -/
theorem RoutedTo.target {easy : Easy} {r : RequestId} (h : RoutedTo easy r) (ev : TransferEvent) :
    callbackTarget easy ev = some r := by
  cases ev with
  | header d => simp only [callbackTarget, h.headerFunction, h.headerData]
  | body d => simp only [callbackTarget, h.writeFunction, h.writeData]

/-- Whether a step sets the promise of the request. -/
def Action.setsValue (r : RequestId) : Action → Bool
  | .setValue r' => r' = r
  | _ => false

theorem setsValue_iff (r : RequestId) (a : Action) : a.setsValue r = true ↔ a = .setValue r := by
  cases a with
  | setValue r' => simp only [Action.setsValue, decide_eq_true_eq, Action.setValue.injEq]
  | _ => simp only [Action.setsValue, Bool.false_eq_true, reduceCtorEq]

variable [HeaderMap]

/-! ## Places of a request -/

/-- The places a sent request can be in. -/
inductive Place where
  /-- In `pending_requests`. -/
  | pending
  /-- Popped and held by the background thread. -/
  | held
  /-- In `ongoing_requests` with its promise unset. -/
  | ongoing
  /-- Its promise is set. -/
  | completed

/-- The request is in the place. -/
def Located (s : Exchange) (r : RequestId) : Place → Prop
  | .pending => r ∈ s.pendingRequests
  | .held => s.focus = .held r
  | .ongoing => (∃ h, s.ongoingRequests h = some r) ∧ s.Open r
  | .completed => ¬s.Open r

/-- An ongoing request stands under its owner's handle. -/
theorem Inv.ongoing_iff {s : Exchange} (hs : Inv s) (r : RequestId) : s.Located r .ongoing ↔
    s.ongoingRequests (s.owner r) = some r ∧ s.Open r := by
  refine and_congr_left fun _ => ?_
  constructor
  · rintro ⟨h, he⟩
    have hkey := hs.custody.keyed h r he
    rw [hkey.2]
    exact he
  · exact fun he => ⟨s.owner r, he⟩

/-- A sent request is in exactly one place. -/
theorem Inv.located {s : Exchange} (hs : Inv s) {r : RequestId} (hsent : s.Sent r) :
    ∃! place, s.Located r place := by
  have hone := hs.custody.conserved r
  rw [if_pos hsent, places] at hone
  have hpending : s.Located r .pending ↔ 0 < s.pendingRequests.count r := List.count_pos_iff.symm
  have hongoing := hs.ongoing_iff r
  -- the four summands of `places` add up to one
  by_cases hopen : s.Open r
  · rw [if_pos hopen] at hone
    by_cases hhand : s.focus = .held r
    · rw [if_pos hhand] at hone
      refine ⟨.held, hhand, fun place hplace => ?_⟩
      cases place with
      | pending =>
        have hcount := hpending.mp hplace
        omega
      | held => rfl
      | ongoing =>
        rw [if_pos (hongoing.mp hplace)] at hone
        omega
      | completed => exact absurd hopen hplace
    · rw [if_neg hhand] at hone
      by_cases hentry : s.ongoingRequests (s.owner r) = some r ∧ s.Open r
      · rw [if_pos hentry] at hone
        refine ⟨.ongoing, hongoing.mpr hentry, fun place hplace => ?_⟩
        cases place with
        | pending =>
          have hcount := hpending.mp hplace
          omega
        | held => exact absurd hplace hhand
        | ongoing => rfl
        | completed => exact absurd hopen hplace
      · rw [if_neg hentry] at hone
        have hcount : 0 < s.pendingRequests.count r := by omega
        refine ⟨.pending, hpending.mpr hcount, fun place hplace => ?_⟩
        cases place with
        | pending => rfl
        | held => exact absurd hplace hhand
        | ongoing => exact absurd (hongoing.mp hplace) hentry
        | completed => exact absurd hopen hplace
  · rw [if_neg hopen] at hone
    refine ⟨.completed, hopen, fun place hplace => ?_⟩
    cases place with
    | pending =>
      have hcount := hpending.mp hplace
      omega
    | held =>
      have hhand : s.focus = .held r := hplace
      rw [if_pos hhand] at hone
      omega
    | ongoing => exact absurd hplace.2 hopen
    | completed => rfl

/-- The queue holds every request once. -/
theorem Inv.pending_nodup {s : Exchange} (hs : Inv s) : s.pendingRequests.Nodup := by
  rw [List.nodup_iff_count_le_one]
  intro r
  have hone := hs.custody.conserved r
  rw [places] at hone
  have hle : (if s.Sent r then 1 else 0) ≤ 1 := by split <;> omega
  omega

/-- Every callback of a running handle goes to the open request stored under it. -/
theorem Inv.callback_target {s : Exchange} (hs : Inv s) {h : CURL} (hrunning : h ∈ s.running) :
    ∃ r, s.ongoingRequests h = some r ∧ s.Open r ∧
      ∀ ev, callbackTarget (s.easy h) ev = some r := by
  obtain ⟨r, hentry, hopen, hroute⟩ :=
    hs.attached_entry (hs.attachment.running h hrunning).1 (hs.not_closing (.inl hrunning))
  exact ⟨r, hentry, hopen, hroute.target⟩

/-! ## One answer for each request -/

/-- No other step than its own `setValue` sets the promise of a request or unsets it. -/
theorem open_step {lib : Library} {s t : Exchange} {a : Action} (hs : Inv s) (hstep : Step lib s a t)
    {r : RequestId} (ha : a ≠ .setValue r) : t.Open r ↔ s.Open r := by
  have hinfo (r' : RequestId) (info : RequestInfo) : (s.setInfo r' info).Open r ↔ s.Open r :=
    (setInfo_unmoved s r' info).isOpen r
  cases hstep with
  | @build h hidle =>
    by_cases he : r = s.nextRequest
    · subst he
      exact iff_of_true (build_new s h).2 hs.custody.next_open
    · exact (build_old h he).2
  | setUrl url hbuilt => exact hinfo _ _
  | callback hrunning htarget hreceive => exact hinfo _ _
  | infoRead code hfocus hmsgs hprivate => exact hinfo _ _
  | @setValue h r' res hfocus hunset =>
    have hne : r ≠ r' := fun he => ha (he ▸ rfl)
    rw [setValue_open]
    exact ⟨And.left, fun ho => ⟨ho, hne⟩⟩
  | _ => exact Iff.rfl

/-- `setValue` sets an unset promise. -/
theorem setValue_closes {lib : Library} {s t : Exchange} {r : RequestId}
    (hstep : Step lib s (.setValue r) t) : s.Open r ∧ ¬t.Open r := by
  cases hstep with
  | @setValue h r res hfocus hunset =>
    refine ⟨hunset, fun hopen => ?_⟩
    rw [setValue_open] at hopen
    exact hopen.2 rfl

section

variable {lib : Library} {easy : CURL → Easy} {history : List (Move Exchange Action)} {s : Exchange}

/-- Reachable states satisfy the invariant. -/
theorem run_inv (hrun : Run (Step lib) (init easy) history s) : Inv s :=
  hrun.invariant (inv_init easy) fun _ _ _ hs hstep => inv_step hs hstep

/-- The promise has been set once if it is set, and otherwise never. -/
theorem run_setValue_count (hrun : Run (Step lib) (init easy) history s) (r : RequestId) :
    (labels history).countP (Action.setsValue r) = if s.Open r then 0 else 1 := by
  refine hrun.induct (I := fun history s =>
    (labels history).countP (Action.setsValue r) = if s.Open r then 0 else 1) rfl ?_
  intro history s a t hpast hcount hstep
  rw [labels_snoc, List.countP_append, hcount, List.countP_singleton]
  by_cases ha : a = .setValue r
  · have hset := setValue_closes (ha ▸ hstep)
    rw [if_pos hset.1, if_neg hset.2, if_pos ((setsValue_iff r a).mpr ha)]
  · have hsame := open_step (run_inv hpast) hstep ha
    have hnot := mt (setsValue_iff r a).mp ha
    rw [if_neg hnot, Nat.add_zero]
    simp only [hsame]

/-- Only open requests are written. -/
theorem info_step {t : Exchange} {a : Action} (hs : Inv s) (hstep : Step lib s a t) {r : RequestId}
    (hset : ¬s.Open r) : t.request r = s.request r := by
  have hinfo (r' : RequestId) (info : RequestInfo) (hopen : s.Open r') :
      (s.setInfo r' info).request r = s.request r := by
    have hne : r ≠ r' := fun he => hset (he ▸ hopen)
    simp only [setInfo, Function.update_of_ne hne]
  cases hstep with
  | build hidle =>
    have hne : r ≠ s.nextRequest := fun he => hset (he ▸ hs.custody.next_open)
    simp only [build, Function.update_of_ne hne]
  | @setUrl h r' url hbuilt =>
    exact hinfo r' _ (hs.custody.unsent (hs.custody.built_unsent hbuilt)).2.2
  | @callback h ev r' info hrunning htarget hreceive =>
    obtain ⟨r'', -, hopen, hroute⟩ := hs.callback_target hrunning
    have he := Option.some.inj ((hroute ev).symm.trans htarget)
    exact hinfo r' info (he ▸ hopen)
  | @infoRead h r' res rest code hfocus hmsgs hprivate =>
    have hentry := hs.message_entry hmsgs hprivate
    have hopening : ¬s.Closing h :=
      not_closing hfocus (fun _ he => by cases he) (fun _ he => by cases he) h
    exact hinfo r' _ (hs.custody.entry_open hopening hentry)
  | @setValue h r' res hfocus hunset =>
    have hne : r ≠ r' := fun he => hset (he ▸ hunset)
    simp only [setValue, setResponse, Function.update_of_ne hne]
  | _ => rfl

/-- libcurl has finished the transfer of a handle with a result while the
request was stored under the handle. -/
def FinishedAs (history : List (Move Exchange Action)) (h : CURL) (r : RequestId) (res : CURLcode) : Prop :=
  ∃ m ∈ history, m.label = .finish h res ∧ m.pre.ongoingRequests h = some r

theorem FinishedAs.snoc {h : CURL} {r : RequestId} {res : CURLcode} (hfinished : FinishedAs history h r res)
    (m : Move Exchange Action) : FinishedAs (history ++ [m]) h r res := by
  obtain ⟨n, hn, hlabel, hentry⟩ := hfinished
  exact ⟨n, List.mem_append_left _ hn, hlabel, hentry⟩

/-- Results come from the transfers of the requests they are delivered to. -/
structure Reported (history : List (Move Exchange Action)) (s : Exchange) : Prop where
  /-- A message tells of the request that is stored under its handle. -/
  message : ∀ h res r, .done h res ∈ s.msgs → s.ongoingRequests h = some r → FinishedAs history h r res
  /-- So does the result in hand. -/
  fulfilling : ∀ h r res, s.focus = .fulfilling h r res → FinishedAs history h r res

/-- Reports stay true while messages are only dropped and no result is taken in hand. -/
theorem Reported.shrink {t : Exchange} {m : Move Exchange Action} (hs : Reported history s)
    (hmsgs : ∀ msg ∈ t.msgs, msg ∈ s.msgs)
    (hentry : ∀ h r, t.ongoingRequests h = some r → s.ongoingRequests h = some r)
    (hfocus : ∀ h r res, t.focus = .fulfilling h r res → s.focus = .fulfilling h r res) :
    Reported (history ++ [m]) t where
  message h res r hm he := (hs.message h res r (hmsgs _ hm) (hentry h r he)).snoc m
  fulfilling h r res hf := (hs.fulfilling h r res (hfocus h r res hf)).snoc m

/-- Every step keeps the reports true. -/
theorem reported_step {t : Exchange} {a : Action} (hinv : Inv s) (hs : Reported history s)
    (hstep : Step lib s a t) : Reported (history ++ [⟨s, a, t⟩]) t := by
  have hkept (t : Exchange) (hmsgs : ∀ msg ∈ t.msgs, msg ∈ s.msgs)
      (hentry : ∀ h, t.ongoingRequests h = s.ongoingRequests h) (hfocus : t.focus = s.focus) :
      Reported (history ++ [⟨s, a, t⟩]) t :=
    hs.shrink hmsgs (fun h r he => (hentry h).symm.trans he) fun h r res hf => hfocus.symm.trans hf
  cases hstep with
  | @finish h res hrunning =>
    refine ⟨fun h' res' r hm he => ?_, fun h' r res' hf => (hs.fulfilling h' r res' hf).snoc _⟩
    rcases List.mem_append.mp hm with hm | hm
    · exact (hs.message h' res' r hm he).snoc _
    · obtain ⟨rfl, rfl⟩ := CURLMsg.done.inj (List.mem_singleton.mp hm)
      exact ⟨_, List.mem_append_right _ (List.mem_singleton_self _), rfl, he⟩
  | notice =>
    refine ⟨fun h res r hm he => ?_, fun h r res hf => (hs.fulfilling h r res hf).snoc _⟩
    rcases List.mem_append.mp hm with hm | hm
    · exact (hs.message h res r hm he).snoc _
    · cases List.mem_singleton.mp hm
  | infoSkip hfocus hmsgs =>
    exact hkept _ (fun msg hm => hmsgs ▸ List.mem_cons_of_mem _ hm) (fun _ => rfl) rfl
  | @infoRead h r res rest code hfocus hmsgs hprivate =>
    refine ⟨fun h' res' r' hm he => ?_, fun h' r' res' hf => ?_⟩
    · exact (hs.message h' res' r' (hmsgs ▸ List.mem_cons_of_mem _ hm) he).snoc _
    · -- the private data of the handle names the request stored under it
      obtain ⟨rfl, rfl, rfl⟩ := Focus.fulfilling.inj hf
      have hentry := hinv.message_entry hmsgs hprivate
      exact (hs.message h res r (hmsgs ▸ List.mem_cons_self) hentry).snoc _
  | setValue hfocus hunset => exact hs.shrink (fun _ hm => hm) (fun _ _ he => he) fun _ _ _ hf => by cases hf
  | removeHandle hfocus =>
    exact hs.shrink (fun _ hm => List.mem_of_mem_filter hm) (fun _ _ he => he) fun _ _ _ hf => by cases hf
  | @erase h r hfocus hfound =>
    refine hs.shrink (fun _ hm => hm) (fun h' r' he => ?_) fun _ _ _ hf => by cases hf
    change Function.update s.ongoingRequests h none h' = some r' at he
    by_cases hsame : h' = h
    · rw [hsame, Function.update_self] at he
      cases he
    · rwa [Function.update_of_ne hsame] at he
  | pop hfocus hpending => exact hs.shrink (fun _ hm => hm) (fun _ _ he => he) fun _ _ _ hf => by cases hf
  | @insert h r hfocus hhandle habsent =>
    refine ⟨fun h' res r' hm he => ?_, fun _ _ _ hf => by cases hf⟩
    change Function.update s.ongoingRequests h (some r) h' = some r' at he
    by_cases hsame : h' = h
    · -- a handle with a message is attached, so its entry is taken
      subst hsame
      have hm : h' ∈ s.finished := List.mem_filterMap.mpr ⟨_, hm, rfl⟩
      exact absurd habsent (hinv.attachment.entry h' (hinv.attachment.finished h' hm))
    · rw [Function.update_of_ne hsame] at he
      exact (hs.message h' res r' hm he).snoc _
  | attach hfocus hdetached =>
    exact hs.shrink (fun _ hm => hm) (fun _ _ he => he) fun _ _ _ hf => by cases hf
  | attachFailed hfocus hcode =>
    exact hs.shrink (fun _ hm => hm) (fun _ _ he => he) fun _ _ _ hf => by cases hf
  | _ => exact hkept _ (fun _ hm => hm) (fun _ => rfl) rfl

/-- Reports are true in every reachable state. -/
theorem run_reported (hrun : Run (Step lib) (init easy) history s) : Reported history s := by
  refine hrun.induct (I := Reported) ⟨fun _ _ _ hm => absurd hm List.not_mem_nil, fun _ _ _ hf => by cases hf⟩ ?_
  intro history s a t hpast hs hstep
  exact reported_step (run_inv hpast) hs hstep

/-- A set promise holds the response built from the request's own
`RequestInfo` and the result of its own transfer. -/
theorem run_response (hrun : Run (Step lib) (init easy) history s) {r : RequestId} {resp : HTTPResponse}
    (hset : (s.request r).response = some resp) :
    ∃ h res, FinishedAs history h r res ∧ resp = checkMultiResponse lib (s.request r).info res := by
  refine hrun.induct (I := fun history s => ∀ resp, (s.request r).response = some resp →
    ∃ h res, FinishedAs history h r res ∧ resp = checkMultiResponse lib (s.request r).info res) ?_ ?_ resp hset
  · intro resp hset
    cases hset
  · intro history s a t hpast hresponse hstep resp hset
    have hs := run_inv hpast
    by_cases hopen : s.Open r
    · have hclosed : ¬t.Open r := by
        intro ho
        rw [show (t.request r).response = none from ho] at hset
        cases hset
      have ha : a = .setValue r := by
        by_contra ha
        exact hclosed ((open_step hs hstep ha).mpr hopen)
      subst ha
      cases hstep with
      | @setValue h r res hfocus hunset =>
        refine ⟨h, res, ((run_reported hpast).fulfilling h r res hfocus).snoc _, ?_⟩
        simp only [setValue, setResponse, Function.update_self] at hset ⊢
        exact (Option.some.inj hset).symm
    · rw [info_step hs hstep hopen] at hset ⊢
      obtain ⟨h, res, hfinished, hresp⟩ := hresponse resp hset
      exact ⟨h, res, hfinished.snoc _, hresp⟩

/-! ## Order -/

/-- The requests in the order in which they are sent. -/
def sendOrder (actions : List Action) : List RequestId :=
  actions.filterMap fun a => match a with
    | .enqueue _ r => some r
    | _ => none

/-- The requests in the order in which they are handed to libcurl. -/
def addOrder (actions : List Action) : List RequestId :=
  actions.filterMap fun a => match a with
    | .addHandle _ r _ => some r
    | _ => none

theorem sendOrder_snoc (history : List (Move Exchange Action)) (m : Move Exchange Action) :
    sendOrder (labels (history ++ [m])) = sendOrder (labels history) ++ sendOrder [m.label] := by
  rw [labels_snoc]
  exact List.filterMap_append

theorem addOrder_snoc (history : List (Move Exchange Action)) (m : Move Exchange Action) :
    addOrder (labels (history ++ [m])) = addOrder (labels history) ++ addOrder [m.label] := by
  rw [labels_snoc]
  exact List.filterMap_append

/-- A step moves requests from the back of the queue towards libcurl without
overtaking. -/
theorem order_step {t : Exchange} {a : Action} (hstep : Step lib s a t) :
    s.focus.inHand ++ s.pendingRequests ++ sendOrder [a] =
      addOrder [a] ++ (t.focus.inHand ++ t.pendingRequests) := by
  cases hstep with
  | enqueue hbuilt => exact List.append_assoc _ _ _
  | infoRead code hfocus hmsgs hprivate =>
    rw [hfocus]
    exact List.append_nil _
  | setValue hfocus hunset =>
    rw [hfocus]
    exact List.append_nil _
  | removeHandle hfocus =>
    rw [hfocus]
    exact List.append_nil _
  | erase hfocus hfound =>
    rw [hfocus]
    exact List.append_nil _
  | pop hfocus hpending =>
    rw [hfocus, hpending]
    exact List.append_nil _
  | insert hfocus hhandle habsent =>
    rw [hfocus]
    exact List.append_nil _
  | attach hfocus hdetached =>
    rw [hfocus]
    exact List.append_nil _
  | attachFailed hfocus hcode =>
    rw [hfocus]
    exact List.append_nil _
  | _ => exact List.append_nil _

/-- Requests are handed to libcurl in the order in which they were sent; those
not handed over yet are in the background thread's hands or in the queue. -/
theorem run_order (hrun : Run (Step lib) (init easy) history s) :
    sendOrder (labels history) = addOrder (labels history) ++ s.focus.inHand ++ s.pendingRequests := by
  refine hrun.induct (I := fun history s => sendOrder (labels history) =
    addOrder (labels history) ++ s.focus.inHand ++ s.pendingRequests) rfl ?_
  intro history s a t hpast horder hstep
  have hmove := order_step hstep
  calc sendOrder (labels (history ++ [⟨s, a, t⟩]))
      = addOrder (labels history) ++ s.focus.inHand ++ s.pendingRequests ++ sendOrder [a] := by
        rw [sendOrder_snoc, horder]
    _ = addOrder (labels history) ++ (s.focus.inHand ++ s.pendingRequests ++ sendOrder [a]) := by
        simp only [List.append_assoc]
    _ = addOrder (labels history) ++ (addOrder [a] ++ (t.focus.inHand ++ t.pendingRequests)) := by
        rw [hmove]
    _ = addOrder (labels (history ++ [⟨s, a, t⟩])) ++ t.focus.inHand ++ t.pendingRequests := by
        rw [addOrder_snoc]
        simp only [List.append_assoc]

/-- A client that does not go back to a construction takes back nothing it sent. -/
theorem Sent.repoint {h : CURL} {pc : ClientPc} {r : RequestId} (hsent : s.Sent r)
    (hpc : ∀ r', pc ≠ .built r') : Function.update s.client h pc (s.owner r) ≠ .built r := by
  by_cases he : s.owner r = h
  · rw [he, Function.update_self]
    exact hpc r
  · rw [Function.update_of_ne he]
    exact hsent.2

/-- A sent request stays sent. -/
theorem sent_step {t : Exchange} {a : Action} (hstep : Step lib s a t) {r : RequestId}
    (hsent : s.Sent r) : t.Sent r := by
  have hinfo (r' : RequestId) (info : RequestInfo) : (s.setInfo r' info).Sent r := by
    have howner := (setInfo_unmoved s r' info).owner r
    simp only [Sent, howner]
    exact hsent
  cases hstep with
  | @build h hidle =>
    have hne : r ≠ s.nextRequest := Nat.ne_of_lt hsent.1
    refine ⟨Nat.lt_succ_of_lt hsent.1, ?_⟩
    rw [(build_old h hne).1]
    change Function.update s.client h (.built s.nextRequest) (s.owner r) ≠ .built r
    by_cases he : s.owner r = h
    · rw [he, Function.update_self]
      exact fun hsame => hne (ClientPc.built.inj hsame).symm
    · rw [Function.update_of_ne he]
      exact hsent.2
  | setUrl url hbuilt => exact hinfo _ _
  | enqueue hbuilt => exact ⟨hsent.1, hsent.repoint fun _ hback => by cases hback⟩
  | signal ok henqueued =>
    refine ⟨hsent.1, hsent.repoint fun _ hback => ?_⟩
    cases ok <;> cases hback
  | receive hwaiting hset => exact ⟨hsent.1, hsent.repoint fun _ hback => by cases hback⟩
  | callback hrunning htarget hreceive => exact hinfo _ _
  | infoRead code hfocus hmsgs hprivate => exact hinfo _ _
  | @setValue h r' res hfocus hunset =>
    refine ⟨hsent.1, ?_⟩
    rw [setValue_owner]
    exact hsent.2
  | _ => exact hsent

/-- What `HandleRequest` was called with is sent. -/
theorem run_sent (hrun : Run (Step lib) (init easy) history s) {h : CURL} {r : RequestId}
    (hm : .enqueue h r ∈ labels history) : s.Sent r := by
  refine hrun.induct (I := fun history s => ∀ h, .enqueue h r ∈ labels history → s.Sent r) ?_ ?_ h hm
  · intro h hm
    cases hm
  · intro history s a t hpast hsent hstep h hm
    have hs := run_inv hpast
    rw [labels_snoc, List.mem_append, List.mem_singleton] at hm
    rcases hm with hm | hm
    · exact sent_step hstep (hsent h hm)
    · have ha : a = .enqueue h r := hm.symm
      subst ha
      cases hstep with
      | enqueue hbuilt =>
        have howner := hs.custody.concern h r (by rw [hbuilt]; rfl)
        refine ⟨howner.1, ?_⟩
        change Function.update s.client h (.enqueued r) (s.owner r) ≠ .built r
        rw [howner.2, Function.update_self]
        nofun

/-! ## The latest request of a handle -/

/-- A client is concerned with the latest request of its handle. -/
def Latest (s : Exchange) : Prop :=
  ∀ h r r', (s.client h).request? = some r → r' < s.nextRequest → s.owner r' = h → r' ≤ r

/-- Only a construction gives a client another request. -/
theorem concern_step {t : Exchange} {a : Action} (hstep : Step lib s a t) (ha : ∀ h, a ≠ .build h) :
    t.nextRequest = s.nextRequest ∧ (∀ r, t.owner r = s.owner r) ∧
      ∀ h r, (t.client h).request? = some r → (s.client h).request? = some r := by
  have hpc (h : CURL) (pc : ClientPc) (hpc : pc.request? = (s.client h).request? ∨ pc.request? = none)
      (h' : CURL) (r : RequestId) (hr : (Function.update s.client h pc h').request? = some r) :
      (s.client h').request? = some r := by
    by_cases he : h' = h
    · subst he
      rw [Function.update_self] at hr
      rcases hpc with hpc | hpc
      · exact hpc ▸ hr
      · cases hpc.symm.trans hr
    · rwa [Function.update_of_ne he] at hr
  cases hstep with
  | build hidle => exact absurd rfl (ha _)
  | setUrl url hbuilt => exact ⟨rfl, (setUrl_unmoved s _ _ url).owner, fun _ _ hr => hr⟩
  | enqueue hbuilt => exact ⟨rfl, fun _ => rfl, hpc _ _ (.inl (by rw [hbuilt]; rfl))⟩
  | signal ok henqueued =>
    refine ⟨rfl, fun _ => rfl, hpc _ _ (.inl ?_)⟩
    rw [henqueued]
    cases ok <;> rfl
  | receive hwaiting hset => exact ⟨rfl, fun _ => rfl, hpc _ _ (.inr rfl)⟩
  | callback hrunning htarget hreceive => exact ⟨rfl, (setInfo_unmoved s _ _).owner, fun _ _ hr => hr⟩
  | infoRead code hfocus hmsgs hprivate => exact ⟨rfl, (setInfo_unmoved s _ _).owner, fun _ _ hr => hr⟩
  | setValue hfocus hunset => exact ⟨rfl, setValue_owner lib s _ _ _, fun _ _ hr => hr⟩
  | _ => exact ⟨rfl, fun _ => rfl, fun _ _ hr => hr⟩

/-- Names are given out in increasing order, so the latest request has the largest. -/
theorem latest_step {t : Exchange} {a : Action} (hstep : Step lib s a t) (hlatest : Latest s) : Latest t := by
  intro h r r' hr hlt howner
  by_cases ha : ∀ h, a ≠ .build h
  · obtain ⟨hnext, howners, hconcern⟩ := concern_step hstep ha
    rw [hnext] at hlt
    rw [howners] at howner
    exact hlatest h r r' (hconcern h r hr) hlt howner
  · obtain ⟨h', hbuild⟩ := not_forall.mp ha
    obtain rfl := not_not.mp hbuild
    cases hstep with
    | build hidle =>
      simp only [build, owner, Function.update_apply] at hr hlt howner
      have hle : r' ≤ s.nextRequest := Nat.le_of_lt_succ hlt
      by_cases he : h = h'
      · rw [if_pos he] at hr
        have hnext : s.nextRequest = r := Option.some.inj hr
        rwa [hnext] at hle
      · have hold : r' ≠ s.nextRequest := by
          intro hnext
          rw [if_pos hnext] at howner
          exact he howner.symm
        rw [if_neg he] at hr
        rw [if_neg hold] at howner
        exact hlatest h r r' hr (Nat.lt_of_le_of_ne hle hold) howner

theorem run_latest (hrun : Run (Step lib) (init easy) history s) : Latest s := by
  refine hrun.invariant ?_ fun _ _ _ hlatest hstep => latest_step hstep hlatest
  intro h r r' hr
  cases hr

/-- A client has built a request, emplaced it and announced it. -/
def sends (s : Exchange) (h : CURL) : Exchange :=
  let queued := (s.build h).enqueue h s.nextRequest
  { queued with client := Function.update queued.client h (.waiting s.nextRequest) }

end

end Exchange

end CurlHttpfs.Manager
