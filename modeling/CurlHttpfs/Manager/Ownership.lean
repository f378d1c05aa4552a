import CurlHttpfs.Manager.LoopInvariant

/-!
# Ownership of requests and handles

The two contracts behind `HandleRequest`. Every request that is sent is
handed over once and answered once, in any interleaving of clients, libcurl
and background thread. The easy handle is not returned with the same care:
the promise is set before the handle is removed from the multi handle and
from the map, so for two steps the client and the background thread both own
it.
-/

namespace CurlHttpfs.Manager.EventLoop

open Http Curl Kernel Transition

/-! ## Requests -/

section

variable [HeaderMap]

/-- What a run guarantees about the requests sent so far. -/
structure HandedOver (lib : Library) (history : List (Move State Action)) (s : State) : Prop where
  /-- Every sent request is in one place. -/
  located : ∀ h r, .enqueue h r ∈ exchangeLabels history → ∃! place, s.exchange.Located r place
  /-- The queue holds it once. -/
  queued : s.exchange.pendingRequests.Nodup
  /-- The map holds it once. -/
  stored : ∀ h h' r, s.exchange.ongoingRequests h = some r → s.exchange.ongoingRequests h' = some r → h = h'
  /-- Its promise has been set once if it is set, and otherwise never. -/
  answered : ∀ r, (exchangeLabels history).countP (Exchange.Action.setsValue r) =
    if s.exchange.Open r then 0 else 1
  /-- The promise holds the response built from the request's own `RequestInfo`
  and the result with which libcurl finished the transfer it was stored for. -/
  response : ∀ r resp, (s.exchange.request r).response = some resp →
    ∃ m ∈ history, ∃ h res, m.label = .exchange (.finish h res) ∧
      m.pre.exchange.ongoingRequests h = some r ∧
      resp = checkMultiResponse lib (s.exchange.request r).info res
  /-- Callbacks of a running handle go to the open request stored under it. -/
  callbacks : ∀ h ∈ s.exchange.running, ∃ r, s.exchange.ongoingRequests h = some r ∧ s.exchange.Open r ∧
    ∀ ev, callbackTarget (s.exchange.easy h) ev = some r
  /-- Requests are handed to libcurl in the order in which they were sent. -/
  ordered : Exchange.sendOrder (exchangeLabels history) =
    Exchange.addOrder (exchangeLabels history) ++ s.exchange.focus.inHand ++ s.exchange.pendingRequests
  /-- No assertion on the map or the promise has failed. -/
  asserted : ∀ why, Handover why → s.bg ≠ .dead why

/-- In every run of the event loop, with any number of clients and in any
interleaving, requests are handed over and answered once, in order, from
their own data. -/
theorem run_handedOver {lib : Library} {easy : CURL → Easy} {history : List (Move State Action)} {s : State}
    (hrun : Run (Step lib) (State.init easy) history s) : HandedOver lib history s := by
  obtain ⟨exchangeHistory, hexchange, hlabels⟩ := run_exchange hrun
  have hs := run_inv hrun
  constructor
  case located =>
    intro h r hm
    rw [← hlabels] at hm
    exact hs.located (Exchange.run_sent hexchange hm)
  case queued => exact hs.pending_nodup
  case stored =>
    intro h h' r he he'
    have hkey := (hs.custody.keyed h r he).2
    have hkey' := (hs.custody.keyed h' r he').2
    exact hkey.symm.trans hkey'
  case answered =>
    intro r
    rw [← hlabels]
    exact Exchange.run_setValue_count hexchange r
  case response =>
    intro r resp hset
    obtain ⟨h, res, ⟨n, hn, hlabel, hentry⟩, hresp⟩ := Exchange.run_response (run_projects hrun) hset
    obtain ⟨m, hm, hvisible, hpre⟩ := mem_projected hn
    rw [hlabel] at hvisible
    exact ⟨m, hm, h, res, exchange_of_visible hvisible, hpre ▸ hentry, hresp⟩
  case callbacks => exact fun h hrunning => hs.callback_target hrunning
  case ordered =>
    rw [← hlabels]
    exact Exchange.run_order hexchange
  case asserted => exact fun why hwhy => run_handover hrun hwhy

end

/-- One client sends a request, receives its response and constructs the next
request, all before the background thread removes the handle. -/
theorem closing_run :
    ∃ history s, Run (Step .common) (State.init fun _ => {}) history s ∧
      s.exchange.client 0 = .built 1 ∧ s.exchange.Closing 0 ∧ 0 ∈ s.exchange.attached ∧
      s.exchange.ongoingRequests 0 = some 0 ∧ s.exchange.Sent 0 ∧ ¬s.exchange.Open 0 ∧
      ∀ r, s.exchange.Sent r → r ≤ 0 := by
  have start : Run (Step .common) (State.init fun _ => {}) [] _ := .nil
  have sent := start.append (send_run (h := 0) trivial rfl rfl)
  have drains := sent.append (wake_run rfl (by decide))
  have stored := drains.append (store_run (h := 0) (r := 0) rfl rfl rfl rfl rfl)
  have added := stored.snoc (.exchange (a := .addHandle 0 0 0) trivial rfl (.attach rfl (by decide)))
  have drained := added.snoc (.pendingEmpty rfl rfl rfl)
  have waits := drained.snoc (.batchDone rfl rfl)
  have woken := waits.snoc
    (.wake [.socket 9 true false] rfl (by decide) (by decide) (by decide) (by decide))
  have acts := woken.snoc (.socket rfl rfl)
  have finished := acts.snoc (.exchange (a := .finish 0 0) trivial rfl (.finish 0 (by decide)))
  have checks := finished.snoc (.actionReturns rfl)
  have read := checks.snoc
    (.exchange (a := .infoRead 0 200) trivial rfl (.infoRead (r := 0) 200 rfl rfl rfl))
  have fulfilled := read.snoc (.exchange (a := .setValue 0) trivial rfl (.setValue rfl rfl))
  have received := fulfilled.snoc (.exchange (a := .receive 0 0) trivial rfl (.receive rfl rfl))
  have rebuilt := received.snoc (.exchange (a := .build 0) trivial rfl (.build rfl))
  refine ⟨_, _, rebuilt, rfl, .inl rfl, by decide, rfl, by decide, by decide, ?_⟩
  intro r hsent
  have hlt : r < 2 := hsent.1
  have hnew : r ≠ 1 := by
    intro he
    subst he
    exact hsent.2 rfl
  exact Nat.le_of_lt_succ (Nat.lt_of_le_of_ne (Nat.le_of_lt_succ hlt) hnew)

/-- The guarantees in a state in which a handle is being closed. -/
theorem run_handedOver_closing :
    ∃ history s, Run (Step .common) (State.init fun _ => {}) history s ∧
      s.exchange.client 0 = .built 1 ∧ s.exchange.Closing 0 ∧ ¬s.exchange.Open 0 ∧
      HandedOver .common history s := by
  obtain ⟨history, s, hrun, hclient, hclosing, -, -, -, hset, -⟩ := closing_run
  exact ⟨history, s, hrun, hclient, hclosing, hset, run_handedOver hrun⟩

/-! ## Handles -/

section

variable [HeaderMap]

/-- Once the promise of a client's last request is set, the background thread
has given the handle back. -/
def Exclusive (s : Exchange) : Prop :=
  ∀ r, s.Sent r → ¬s.Open r → (∀ r', s.Sent r' → s.owner r' = s.owner r → r' ≤ r) →
    s.owner r ∉ s.attached ∧ s.ongoingRequests (s.owner r) = none

/-- Every handle being closed has been used for another request already. -/
def ClosingReused (s : Exchange) : Prop :=
  ∀ r, s.Closing (s.owner r) → s.Sent r → (∀ r', s.Sent r' → s.owner r' = s.owner r → r' ≤ r) → s.Open r

/-- An entry whose promise is not set belongs to the latest request of its handle. -/
theorem entry_latest {s : Exchange} (hs : s.Inv) (hlatest : s.Latest) {h : CURL} {r : RequestId}
    (hentry : s.ongoingRequests h = some r) (hopen : s.Open r) :
    s.Sent r ∧ ∀ r', s.Sent r' → s.owner r' = h → r' ≤ r := by
  obtain ⟨hlt, howner⟩ := hs.custody.keyed h r hentry
  have hawaited := hs.custody.awaited r hlt hopen
  rw [howner] at hawaited
  have hplaces := hs.custody.conserved r
  have hsent : s.Sent r := by
    by_contra hn
    have hone : (if s.ongoingRequests h = some r ∧ s.Open r then 1 else 0) = 1 := if_pos ⟨hentry, hopen⟩
    rw [Exchange.places, if_neg hn, howner, hone] at hplaces
    omega
  exact ⟨hsent, fun r' hsent' howner' => hlatest h r r' hawaited hsent'.1 howner'⟩

/-- A state is exclusive exactly when no handle whose last request is
fulfilled is being closed. -/
theorem exclusive_iff_closingReused {s : Exchange} (hs : s.Inv) (hlatest : s.Latest) :
    Exclusive s ↔ ClosingReused s := by
  constructor
  · intro hexclusive r hclosing hsent hlast
    by_contra hset
    obtain ⟨r', hentry, -⟩ := hs.custody.closing (s.owner r) hclosing
    have hnone := (hexclusive r hsent hset hlast).2
    cases hnone.symm.trans hentry
  · intro hreused r hsent hset hlast
    have hnone : s.ongoingRequests (s.owner r) = none := by
      by_contra hsome
      obtain ⟨r', hentry⟩ := Option.ne_none_iff_exists'.mp hsome
      have howner := (hs.custody.keyed _ r' hentry).2
      by_cases hopen : s.Open r'
      · -- the entry is open, so it is the last request itself
        obtain ⟨hsent', hlast'⟩ := entry_latest hs hlatest hentry hopen
        have hle := hlast r' hsent' howner
        have hge := hlast' r hsent rfl
        have he : r = r' := Nat.le_antisymm hge hle
        exact hset (he ▸ hopen)
      · have hclosing := hs.custody.settled _ r' hentry hopen
        exact hset (hreused r hclosing hsent hlast)
    exact ⟨fun hattached => hs.attachment.entry _ hattached hnone, hnone⟩

/-- Setting a promise breaks exclusive ownership at once. -/
theorem setValue_not_exclusive {lib : Library} {s t : Exchange} {r : RequestId} (hs : s.Inv)
    (hlatest : s.Latest) (hstep : Exchange.Step lib s (.setValue r) t) : ¬Exclusive t := by
  have ht := Exchange.inv_step hs hstep
  have hset := (Exchange.setValue_closes hstep).2
  cases hstep with
  | @setValue h r res hfocus hunset =>
    obtain ⟨hentry, hopen⟩ := hs.custody.fulfilling h r res hfocus
    obtain ⟨hsent, hlast⟩ := entry_latest hs hlatest hentry hopen
    have howners := Exchange.setValue_owner lib s h r res
    have hsents (r' : RequestId) : (s.setValue lib h r res).Sent r' ↔ s.Sent r' := by
      simp only [Exchange.Sent, howners]
      exact Iff.rfl
    have howner : (s.setValue lib h r res).owner r = h :=
      (howners r).trans (hs.custody.keyed h r hentry).2
    intro hexclusive
    have hlast' : ∀ r', (s.setValue lib h r res).Sent r' →
        (s.setValue lib h r res).owner r' = (s.setValue lib h r res).owner r → r' ≤ r := by
      intro r' hsent' howner'
      rw [howner, howners] at howner'
      exact hlast r' ((hsents r').mp hsent') howner'
    have hnone := (hexclusive r ((hsents r).mpr hsent) hset hlast').2
    rw [howner] at hnone
    cases hnone.symm.trans hentry

/-- No promise is set in a run whose steps set none. -/
theorem run_all_open {lib : Library} {easy : CURL → Easy} {history : List (Move State Action)} {s : State}
    (hrun : Run (Step lib) (State.init easy) history s)
    (hnone : ∀ m ∈ history, ∀ r, m.label ≠ .exchange (.setValue r)) (r : RequestId) : s.exchange.Open r := by
  have hcount := (run_handedOver hrun).answered r
  have hzero : (exchangeLabels history).countP (Exchange.Action.setsValue r) = 0 := by
    rw [List.countP_eq_zero]
    intro b hb hsets
    obtain rfl := (Exchange.setsValue_iff r b).mp hsets
    obtain ⟨a, ha, hvisible⟩ := List.mem_filterMap.mp hb
    obtain ⟨m, hm, rfl⟩ := List.mem_map.mp ha
    cases hlabel : m.label with
    | exchange b =>
      rw [hlabel] at hvisible
      have hb : b = .setValue r := Option.some.inj hvisible
      exact hnone m hm r (hb ▸ hlabel)
    | _ =>
      rw [hlabel] at hvisible
      cases hvisible
  by_contra hset
  rw [hzero, if_neg hset] at hcount
  omega

/-- A state reached by a run is exclusive exactly when the background thread
is not between setting the promise and erasing the entry of a handle whose
client has sent nothing since; and all states of a run are exclusive exactly
when the run sets no promise at all. -/
theorem run_exclusive_iff {lib : Library} {easy : CURL → Easy} {history : List (Move State Action)}
    {s : State} (hrun : Run (Step lib) (State.init easy) history s) :
    (Exclusive s.exchange ↔ ClosingReused s.exchange) ∧
    ((∀ m ∈ history, Exclusive m.post.exchange) ↔
      ∀ m ∈ history, ∀ r, m.label ≠ .exchange (.setValue r)) := by
  have hlatest {history : List (Move State Action)} {s : State}
      (hrun : Run (Step lib) (State.init easy) history s) : s.exchange.Latest := by
    obtain ⟨exchangeHistory, hexchange, -⟩ := run_exchange hrun
    exact Exchange.run_latest hexchange
  refine ⟨exclusive_iff_closingReused (run_inv hrun) (hlatest hrun), ?_⟩
  constructor
  · intro hall m hm r hlabel
    obtain ⟨earlier, hle⟩ := exists_prefix hm
    obtain ⟨hpast, hstep⟩ := hrun.of_prefix hle
    rw [hlabel] at hstep
    exact setValue_not_exclusive (run_inv hpast) (hlatest hpast) (step_shown hstep rfl) (hall m hm)
  · intro hnone m hm r hsent hset
    obtain ⟨earlier, hle, hearlier⟩ := hrun.to_post hm
    have hopen := run_all_open hearlier (fun m' hm' => hnone m' (hle.subset hm')) r
    exact absurd hopen hset

end

/-- The equivalence for a run that sets a promise. -/
theorem run_exclusive_closing :
    ∃ (history : List (Move State Action)) (s : State),
      Run (Step .common) (State.init fun _ => {}) history s ∧ s.exchange.Closing 0 ∧
      ((∀ m ∈ history, Exclusive m.post.exchange) ↔
        ∀ m ∈ history, ∀ r, m.label ≠ .exchange (.setValue r)) ∧
      (Exclusive s.exchange ↔ ClosingReused s.exchange) := by
  obtain ⟨history, s, hrun, -, hclosing, -⟩ := closing_run
  have hiff := run_exclusive_iff hrun
  exact ⟨history, s, hrun, hclosing, hiff.2, hiff.1⟩

/-- The response has been returned and the client has set options of its
handle for the next request, while the handle is still attached and still a
key of the map. -/
theorem run_closing_not_exclusive :
    ∃ history s, Run (Step .common) (State.init fun _ => {}) history s ∧
      s.exchange.client 0 = .built 1 ∧ 0 ∈ s.exchange.attached ∧
      s.exchange.ongoingRequests 0 = some 0 ∧ ¬Exclusive s.exchange := by
  obtain ⟨history, s, hrun, hclient, hclosing, hattached, hentry, hsent, hset, hlast⟩ := closing_run
  refine ⟨history, s, hrun, hclient, hattached, hentry, ?_⟩
  intro hexclusive
  have hnone := (hexclusive 0 hsent hset fun r' hsent' _ => hlast r' hsent').2
  have howner := ((run_inv hrun).custody.keyed 0 0 hentry).2
  rw [howner] at hnone
  cases hnone.symm.trans hentry

end CurlHttpfs.Manager.EventLoop
