import CurlHttpfs.Lib.Throughout
import CurlHttpfs.Manager.LoopInvariant

/-!
# The timeouts libcurl asks for

`MultiTimerCallback` sets the timer to what libcurl asks for, and
`EventCallback` disarms it when the count of running transfers is zero. The
count is the one the last `curl_multi_socket_action` stored, but `CheckMulti`
removes every finished transfer before the count is looked at, so a zero
count means that nothing is attached. A transfer attached later asks for its
own timeout.
-/

namespace CurlHttpfs.Manager

open Http Curl Kernel Transition

/-- The locals hold a transfer that is being removed. -/
def Focus.removes : Focus → Bool
  | .fulfilling _ _ _ | .removing _ => true
  | .idle | .held _ | .adding _ _ | .erasing _ => false

namespace Exchange

section

variable [HeaderMap]

/-! ## Attached transfers -/

/-- Every attached transfer runs, has its message queued or is being removed. -/
def Accounted (s : Exchange) : Prop :=
  ∀ h ∈ s.attached, h ∈ s.running ∨ h ∈ s.finished ∨ (∃ r res, s.focus = .fulfilling h r res) ∨
    s.focus = .removing h

/-- A step that touches neither the transfers nor the locals keeps them accounted for. -/
theorem Accounted.congr {s t : Exchange} (hs : Accounted s) (hattached : t.attached = s.attached)
    (hrunning : t.running = s.running) (hmsgs : t.finished = s.finished) (hfocus : t.focus = s.focus) :
    Accounted t := by
  intro h hm
  rw [hattached] at hm
  rw [hrunning, hmsgs, hfocus]
  exact hs h hm

/-- With nothing being removed an attached transfer runs or has a message. -/
theorem Accounted.plain {s : Exchange} (hs : Accounted s) (hfocus : s.focus.removes = false) {h : CURL}
    (hm : h ∈ s.attached) : h ∈ s.running ∨ h ∈ s.finished := by
  rcases hs h hm with hrunning | hfinished | ⟨r, res, he⟩ | he
  · exact .inl hrunning
  · exact .inr hfinished
  · rw [he] at hfocus
    cases hfocus
  · rw [he] at hfocus
    cases hfocus

/-- Locals without a removal keep transfers accounted for. -/
theorem Accounted.refocus {s t : Exchange} (hs : Accounted s) (hfocus : s.focus.removes = false)
    (hattached : t.attached = s.attached) (hrunning : t.running = s.running)
    (hfinished : t.finished = s.finished) : Accounted t := by
  intro h hm
  rw [hattached] at hm
  rw [hrunning, hfinished]
  rcases hs.plain hfocus hm with hr | hf
  · exact .inl hr
  · exact .inr (.inl hf)

/-- Every step keeps the attached transfers accounted for. -/
theorem accounted_step {lib : Library} {s t : Exchange} {a : Action} (hs : Accounted s)
    (hstep : Step lib s a t) : Accounted t := by
  cases hstep with
  | @finish h' res hrunning =>
    intro h hm
    have hfinished : (s.finish h' res).finished = s.finished ++ [h'] := by
      simp only [finished, finish, List.filterMap_append, List.filterMap_cons, List.filterMap_nil,
        CURLMsg.handle?]
    rw [hfinished]
    by_cases he : h = h'
    · exact .inr (.inl (List.mem_append_right _ (List.mem_singleton.mpr he)))
    · rcases hs h hm with hr | hf | hfocus
      · exact .inl (Finset.mem_erase.mpr ⟨he, hr⟩)
      · exact .inr (.inl (List.mem_append_left _ hf))
      · exact .inr (.inr hfocus)
  | notice =>
    refine hs.congr rfl rfl ?_ rfl
    simp only [finished, List.filterMap_append, List.filterMap_cons, List.filterMap_nil,
      CURLMsg.handle?, List.append_nil]
  | infoSkip hfocus hmsgs =>
    refine hs.congr rfl rfl ?_ rfl
    simp only [finished, hmsgs, List.filterMap_cons, CURLMsg.handle?]
  | @infoRead h' r res rest code hfocus hmsgs hprivate =>
    intro h hm
    have hfinished : s.finished = h' :: rest.filterMap CURLMsg.handle? := by
      simp only [finished, hmsgs, List.filterMap_cons, CURLMsg.handle?]
    rcases hs.plain (congrArg Focus.removes hfocus) hm with hr | hf
    · exact .inl hr
    · rw [hfinished] at hf
      rcases List.mem_cons.mp hf with rfl | hrest
      · exact .inr (.inr (.inl ⟨r, res, rfl⟩))
      · exact .inr (.inl hrest)
  | @setValue h' r res hfocus hunset =>
    intro h hm
    rcases hs h hm with hr | hf | ⟨r', res', he⟩ | he
    · exact .inl hr
    · exact .inr (.inl hf)
    · rw [hfocus] at he
      exact .inr (.inr (.inr (congrArg Focus.removing (Focus.fulfilling.inj he).1)))
    · cases hfocus.symm.trans he
  | @removeHandle h' hfocus =>
    intro h hm
    obtain ⟨hne, hm⟩ := Finset.mem_erase.mp hm
    rcases hs h hm with hr | hf | ⟨r, res, he⟩ | he
    · exact .inl (Finset.mem_erase.mpr ⟨hne, hr⟩)
    · obtain ⟨msg, hmsg, hhandle⟩ := List.mem_filterMap.mp hf
      refine .inr (.inl (List.mem_filterMap.mpr ⟨msg, List.mem_filter.mpr ⟨hmsg, ?_⟩, hhandle⟩))
      rw [hhandle]
      exact decide_eq_true fun he => hne (Option.some.inj he)
    · cases hfocus.symm.trans he
    · exact absurd (Focus.removing.inj (hfocus.symm.trans he)).symm hne
  | erase hfocus hfound => exact hs.refocus (congrArg Focus.removes hfocus) rfl rfl rfl
  | pop hfocus hpending => exact hs.refocus (congrArg Focus.removes hfocus) rfl rfl rfl
  | insert hfocus hhandle habsent => exact hs.refocus (congrArg Focus.removes hfocus) rfl rfl rfl
  | @attach h' r hfocus hdetached =>
    intro h hm
    rcases Finset.mem_insert.mp hm with he | hm
    · exact .inl (Finset.mem_insert.mpr (.inl he))
    · rcases hs.plain (congrArg Focus.removes hfocus) hm with hr | hf
      · exact .inl (Finset.mem_insert_of_mem hr)
      · exact .inr (.inl hf)
  | attachFailed hfocus hcode => exact hs.refocus (congrArg Focus.removes hfocus) rfl rfl rfl
  | _ => exact hs

/-- Clients and `CheckMulti` neither start nor finish a transfer, and attach nothing. -/
theorem running_kept {lib : Library} {s t : Exchange} {a : Action} (hs : Inv s) (hstep : Step lib s a t)
    (ha : a.actor = .client ∨ a.actor = .checkMulti) :
    t.running = s.running ∧ t.attached ⊆ s.attached := by
  cases hstep with
  | callback hrunning htarget hreceive => rcases ha with ha | ha <;> cases ha
  | finish res hrunning => rcases ha with ha | ha <;> cases ha
  | notice => rcases ha with ha | ha <;> cases ha
  | pop hfocus hpending => rcases ha with ha | ha <;> cases ha
  | insert hfocus hhandle habsent => rcases ha with ha | ha <;> cases ha
  | attach hfocus hdetached => rcases ha with ha | ha <;> cases ha
  | attachFailed hfocus hcode => rcases ha with ha | ha <;> cases ha
  | @removeHandle h hfocus =>
    have hdone := (hs.attachment.removing h hfocus).2.1
    exact ⟨Finset.erase_eq_of_notMem hdone, Finset.erase_subset _ _⟩
  | _ => exact ⟨rfl, fun _ => id⟩

end

end Exchange

namespace EventLoop

/-! ## The running count -/

section

variable [HeaderMap] {lib : Library} {easy : CURL → Easy} {history : List (Move State Action)} {s : State}

/-- The stored count is exact behind `curl_multi_socket_action`, and behind
`CheckMulti` the attached transfers are the running ones. -/
structure Counts (s : State) : Prop where
  /-- In `CheckMulti` the count is that of the running transfers. -/
  checking : ∀ caller, s.bg = .checkMulti caller → s.stillRunning = s.exchange.running.card
  /-- Behind it nothing else is attached. -/
  after : s.bg = .afterCheck →
    s.stillRunning = s.exchange.running.card ∧ s.exchange.attached ⊆ s.exchange.running

/-- In any other position nothing is asked of the count. -/
theorem Counts.elsewhere {s : State} (hchecking : ∀ caller, s.bg ≠ .checkMulti caller)
    (hafter : s.bg ≠ .afterCheck) : Counts s :=
  ⟨fun caller hbg => absurd hbg (hchecking caller), fun hbg => absurd hbg hafter⟩

/-- A step of the exchange keeps the count. -/
theorem Counts.exchange {s : State} {a : Exchange.Action} {e : Exchange} (hs : Counts s)
    (hinv : s.exchange.Inv) (hstep : Exchange.Step lib s.exchange a e) (hruns : s.bg.Runs a.actor) :
    Counts { s with exchange := e } := by
  constructor
  · intro caller (hbg : s.bg = _)
    have hactor : a.actor = .client ∨ a.actor = .checkMulti := by
      rw [hbg] at hruns
      cases hactor : a.actor with
      | client => exact .inl rfl
      | checkMulti => exact .inr rfl
      | libcurl | processPendingRequests =>
        rw [hactor] at hruns
        exact absurd hruns id
    have hrunning := (Exchange.running_kept hinv hstep hactor).1
    exact (hs.checking caller hbg).trans (congrArg Finset.card hrunning.symm)
  · intro (hbg : s.bg = _)
    have hactor : a.actor = .client := by
      rw [hbg] at hruns
      cases hactor : a.actor with
      | client => rfl
      | libcurl | checkMulti | processPendingRequests =>
        rw [hactor] at hruns
        exact absurd hruns id
    obtain ⟨hrunning, hattached⟩ := Exchange.running_kept hinv hstep (.inl hactor)
    obtain ⟨hcount, hsub⟩ := hs.after hbg
    change _ = e.running.card ∧ e.attached ⊆ e.running
    rw [hrunning]
    exact ⟨hcount, fun _ hm => hsub (hattached hm)⟩

/-- The attached transfers of every reachable state are accounted for. -/
theorem run_accounted (hrun : Run (Step lib) (State.init easy) history s) : s.exchange.Accounted := by
  obtain ⟨exchangeHistory, hexchange, -⟩ := run_exchange hrun
  exact hexchange.invariant (I := Exchange.Accounted) (fun _ hm => absurd hm (Finset.notMem_empty _))
    fun _ _ _ hs hstep => Exchange.accounted_step hs hstep

/-- When `CheckMulti` is done, every attached transfer runs. -/
theorem attached_running (haccounted : s.exchange.Accounted) (hfocus : s.exchange.focus = .idle)
    (hmsgs : s.exchange.msgs = []) : s.exchange.attached ⊆ s.exchange.running := by
  intro h hm
  rcases haccounted.plain (congrArg Focus.removes hfocus) hm with hrunning | hfinished
  · exact hrunning
  · rw [Exchange.finished, hmsgs] at hfinished
    exact absurd hfinished List.not_mem_nil

/-- Every step keeps the count. -/
theorem counts_step {t : State} {a : Action} (hinv : s.exchange.Inv) (haccounted : s.exchange.Accounted)
    (hs : Counts s) (hstep : Step lib s a t) : Counts t := by
  cases hstep with
  | exchange hruns hsilent hstep => exact hs.exchange hinv hstep hruns
  | signal hruns hstep hwrite =>
    have hkept := hs.exchange hinv hstep hruns
    exact ⟨hkept.checking, hkept.after⟩
  | signalFails hruns hstep hwrite => exact hs.exchange hinv hstep hruns
  | elapse d => exact ⟨hs.checking, hs.after⟩
  | interrupted hbg => exact hs
  | wake batch hbg hsome hmax hdistinct hready => exact .elsewhere nofun nofun
  | batchDone hbg hevents => exact .elsewhere nofun nofun
  | timer hbg hevents =>
    unfold State.timerCallback
    split <;> exact .elsewhere nofun nofun
  | event hbg hevents =>
    unfold State.eventRead
    split <;> exact .elsewhere nofun nofun
  | socket hbg hevents => exact .elsewhere nofun nofun
  | multiTimer timeoutMs hinside =>
    rw [settime_multiTimer]
    exact ⟨hs.checking, hs.after⟩
  | actionReturns hbg => exact ⟨fun _ _ => rfl, nofun⟩
  | @checkDone caller hbg hfocus hmsgs =>
    cases caller with
    | timerCallback =>
      rw [State.checkDone]
      exact .elsewhere nofun nofun
    | eventCallback fd action =>
      rw [State.checkDone]
      exact ⟨nofun, fun _ => ⟨hs.checking _ hbg, attached_running haccounted hfocus hmsgs⟩⟩
  | endEventCallback hbg =>
    rw [endEventCallback_eq]
    exact .elsewhere nofun nofun
  | pendingEmpty hbg hfocus hpending => exact .elsewhere nofun nofun
  | abort haborts => exact .elsewhere nofun nofun

/-- The count is right in every reachable state. -/
theorem run_counts (hrun : Run (Step lib) (State.init easy) history s) : Counts s := by
  refine hrun.induct (I := fun _ s => Counts s)
    (.elsewhere (fun _ hbg => Background.noConfusion hbg) fun hbg => Background.noConfusion hbg) ?_
  intro history s a t hpast hs hstep
  exact counts_step (run_inv hpast) (run_accounted hpast) hs hstep

/-- The timer is disarmed only when nothing is attached. -/
theorem disarm_detached {t : State} (hs : Counts s) (hstep : Step lib s (.endEventCallback true) t) :
    s.exchange.attached = ∅ := by
  have hend {disarms : Bool} (hstep : Step lib s (.endEventCallback disarms) t) :
      s.bg = .afterCheck ∧ disarms = decide (s.stillRunning = 0) := by
    cases hstep with
    | endEventCallback hbg => exact ⟨hbg, rfl⟩
  obtain ⟨hbg, hdisarms⟩ := hend hstep
  obtain ⟨hcount, hsub⟩ := hs.after hbg
  have hzero : s.exchange.running.card = 0 := hcount.symm.trans (of_decide_eq_true hdisarms.symm)
  exact Finset.subset_empty.mp (Finset.card_eq_zero.mp hzero ▸ hsub)

/-! ## Requests of libcurl -/

/-- The last timeout libcurl asked for, with the time of the request. A new
`curl_multi_socket_action` with `CURL_SOCKET_TIMEOUT` forgets it. -/
def noteRequest (last : Option (Int × Nat)) (m : Move State Action) : Option (Int × Nat) :=
  match m.label with
  | .dispatch .timer => none
  | .multiTimer timeoutMs => some (timeoutMs, m.pre.now)
  | _ => last

/-- The last request during or after the last `CURL_SOCKET_TIMEOUT` action. -/
def lastRequest (history : List (Move State Action)) : Option (Int × Nat) :=
  history.foldl noteRequest none

/-- Whether libcurl has asked for a timeout since a request was last stored. -/
def noteAsked (asked : Bool) (m : Move State Action) : Bool :=
  match m.label with
  | .exchange (.insert _ _) => false
  | .multiTimer _ => true
  | _ => asked

/-- libcurl has asked for a timeout since `ProcessPendingRequests` stored its last request. -/
def asked (history : List (Move State Action)) : Bool := history.foldl noteAsked false

/-- `curl_multi_add_handle` asks for a timeout before it returns successfully,
so that the new transfer is started. -/
def AddAsks (history : List (Move State Action)) : Prop :=
  Throughout (fun earlier m => ∀ h r, m.label = .exchange (.addHandle h r 0) → asked earlier = true) history

/-- When the timer fires for a timeout that was asked for at a time. -/
def firesAt (timeoutMs : Int) (time : Nat) : Nat := time + max (timeoutMs.toNat * 1000000) 1

/-- The timer has the last request, or nothing is attached that could need it
and what is being attached has not asked yet. -/
def Serves (s : State) (last : Option (Int × Nat)) (asked : Bool) : Prop :=
  ∀ timeoutMs time, last = some (timeoutMs, time) → 0 ≤ timeoutMs →
    s.timer.deadline = some (firesAt timeoutMs time) ∨
      s.exchange.attached = ∅ ∧ ((∃ h r, s.exchange.focus = .adding h r) → asked = false)

/-- What a step of the exchange does to attachments. -/
theorem attached_step {s t : Exchange} {a : Exchange.Action} (hstep : Exchange.Step lib s a t) :
    (∃ h r, a = .addHandle h r 0 ∧ s.focus = .adding h r) ∨
      t.attached ⊆ s.attached ∧ ∀ h r, t.focus = .adding h r → s.focus = .adding h r ∨ a = .insert h r := by
  cases hstep with
  | infoRead code hfocus hmsgs hprivate => exact .inr ⟨fun _ => id, fun _ _ he => nomatch he⟩
  | setValue hfocus hunset => exact .inr ⟨fun _ => id, fun _ _ he => nomatch he⟩
  | removeHandle hfocus => exact .inr ⟨Finset.erase_subset _ _, fun _ _ he => nomatch he⟩
  | erase hfocus hfound => exact .inr ⟨fun _ => id, fun _ _ he => nomatch he⟩
  | pop hfocus hpending => exact .inr ⟨fun _ => id, fun _ _ he => nomatch he⟩
  | insert hfocus hhandle habsent =>
    refine .inr ⟨fun _ => id, fun h r he => .inr ?_⟩
    obtain ⟨rfl, rfl⟩ := Focus.adding.inj he
    rfl
  | attach hfocus hdetached => exact .inl ⟨_, _, rfl, hfocus⟩
  | attachFailed hfocus hcode => exact .inr ⟨fun _ => id, fun _ _ he => nomatch he⟩
  | _ => exact .inr ⟨fun _ => id, fun _ _ he => .inl he⟩

/-- A step of the exchange leaves the timer to the last request. -/
theorem Serves.exchange {t : State} {last : Option (Int × Nat)} {asked : Bool} {a : Exchange.Action}
    (hs : Serves s last asked) (hstep : Exchange.Step lib s.exchange a t.exchange)
    (htimer : t.timer = s.timer) (hasks : ∀ h r, a = .addHandle h r 0 → asked = true) :
    Serves t last (noteAsked asked ⟨s, .exchange a, t⟩) := by
  intro timeoutMs time hlast hpos
  rw [htimer]
  rcases hs timeoutMs time hlast hpos with hdeadline | ⟨hnone, hadding⟩
  · exact .inl hdeadline
  · rcases attached_step hstep with ⟨h, r, rfl, hfocus⟩ | ⟨hattached, hfocus⟩
    · -- a transfer that is attached now has asked since it was stored
      have hcontra := (hadding ⟨h, r, hfocus⟩).symm.trans (hasks h r rfl)
      cases hcontra
    · refine .inr ⟨Finset.subset_empty.mp (hnone ▸ hattached), ?_⟩
      rintro ⟨h, r, he⟩
      rcases hfocus h r he with hbefore | rfl
      · have hfalse := hadding ⟨h, r, hbefore⟩
        rw [hfalse]
        cases a <;> rfl
      · rfl

/-- A step that leaves timer and exchange alone leaves the timer to the last request. -/
theorem Serves.frame {t : State} {last : Option (Int × Nat)} {asked : Bool} (hs : Serves s last asked)
    (htimer : t.timer = s.timer) (hexchange : t.exchange = s.exchange) : Serves t last asked := by
  intro timeoutMs time hlast hpos
  rw [htimer, hexchange]
  exact hs timeoutMs time hlast hpos

/-- Every step leaves the timer to the last request. -/
theorem serves_step {t : State} {a : Action} {last : Option (Int × Nat)} {asked : Bool} (hcounts : Counts s)
    (hidle : ¬Handling s.bg → s.exchange.focus = .idle) (hs : Serves s last asked) (hstep : Step lib s a t)
    (hasks : ∀ h r, a = .exchange (.addHandle h r 0) → asked = true) :
    Serves t (noteRequest last ⟨s, a, t⟩) (noteAsked asked ⟨s, a, t⟩) := by
  have hasks (h : CURL) (r : RequestId) {b : Exchange.Action} (ha : a = .exchange b)
      (hb : b = .addHandle h r 0) : asked = true := hasks h r (hb ▸ ha)
  cases hstep with
  | exchange hruns hsilent hstep => exact hs.exchange hstep rfl fun h r => hasks h r rfl
  | signal hruns hstep hwrite =>
    exact hs.exchange hstep rfl fun h r => hasks h r rfl
  | signalFails hruns hstep hwrite => exact hs.exchange hstep rfl fun h r => hasks h r rfl
  | timer hbg hevents => exact fun _ _ hlast => nomatch hlast
  | event hbg hevents =>
    refine hs.frame ?_ ?_ <;> unfold State.eventRead <;> split <;> rfl
  | multiTimer timeoutMs hinside =>
    intro timeoutMs' time hlast hpos
    obtain ⟨rfl, rfl⟩ := Prod.mk.inj (Option.some.inj hlast)
    have hneg : ¬timeoutMs < 0 := by omega
    have hnanos := (multiTimerSpec_nanos timeoutMs).2
    rw [if_neg hneg] at hnanos
    have hwait : max (timeoutMs.toNat * 1000000) 1 ≠ 0 := by omega
    rw [settime_multiTimer, hnanos, if_neg hwait]
    exact .inl rfl
  | @checkDone caller hbg hfocus hmsgs => cases caller <;> exact hs.frame rfl rfl
  | @endEventCallback hbg =>
    rw [endEventCallback_eq]
    by_cases hzero : s.stillRunning = 0
    · have hends : Step lib s (.endEventCallback (s.stillRunning = 0)) s.endEventCallback :=
        .endEventCallback hbg
      rw [decide_eq_true hzero] at hends
      have hdetached := disarm_detached hcounts hends
      intro _ _ _ _
      refine .inr ⟨hdetached, ?_⟩
      rintro ⟨h, r, he⟩
      cases (hidle (hbg ▸ id)).symm.trans he
    · rw [if_neg hzero]
      exact hs.frame rfl rfl
  | _ => exact hs.frame rfl rfl

/-- In every run the timer has the last request, as far as a transfer needs it. -/
theorem run_serves (hrun : Run (Step lib) (State.init easy) history s) (hasks : AddAsks history) :
    Serves s (lastRequest history) (asked history) := by
  refine hrun.induct (I := fun history s => AddAsks history → Serves s (lastRequest history) (asked history))
    (fun _ _ _ hlast => nomatch hlast) ?_ hasks
  intro history s a t hpast hI hstep hasks
  obtain ⟨hbefore, hnow⟩ := (throughout_concat _ _).mp hasks
  have hnext : lastRequest (history ++ [⟨s, a, t⟩]) = noteRequest (lastRequest history) ⟨s, a, t⟩ ∧
      asked (history ++ [⟨s, a, t⟩]) = noteAsked (asked history) ⟨s, a, t⟩ := by
    simp only [lastRequest, asked, List.foldl_append, List.foldl_cons, List.foldl_nil, and_self]
  rw [hnext.1, hnext.2]
  exact serves_step (run_counts hpast) (run_focus hpast) (hI hbefore) hstep hnow

/-- What becomes of the timeouts libcurl asks for. -/
structure TimeoutsKept (history : List (Move State Action)) (s : State) : Prop where
  /-- What is written is valid, and disarms exactly for a negative timeout. -/
  written : ∀ timeoutMs, (multiTimerSpec timeoutMs).tvNsec < 1000000000 ∧
    ((multiTimerSpec timeoutMs).nanos = 0 ↔ timeoutMs < 0)
  /-- `EventCallback` disarms the timer only when nothing is attached. -/
  disarmed : ∀ m ∈ history, m.label = .endEventCallback true → m.pre.exchange.attached = ∅
  /-- With a transfer attached, the timer is armed for the last timeout asked
  for, or has expired at that time and its expiration is unread. -/
  kept : s.exchange.attached.Nonempty → ∀ timeoutMs time, lastRequest history = some (timeoutMs, time) →
    0 ≤ timeoutMs → s.timer.deadline = some (firesAt timeoutMs time)

/-- In every run of the event loop, with any order of events and any timeouts,
no timeout is dropped that an attached transfer needs. -/
theorem run_timeoutsKept (hrun : Run (Step lib) (State.init easy) history s) (hasks : AddAsks history) :
    TimeoutsKept history s := by
  constructor
  · intro timeoutMs
    obtain ⟨hvalid, hnanos⟩ := multiTimerSpec_nanos timeoutMs
    refine ⟨hvalid, ?_⟩
    rw [hnanos]
    split <;> omega
  · intro m hm hlabel
    obtain ⟨earlier, hle⟩ := exists_prefix hm
    obtain ⟨hpast, hstep⟩ := hrun.of_prefix hle
    exact disarm_detached (run_counts hpast) (hlabel ▸ hstep)
  · rintro ⟨h, hattached⟩ timeoutMs time hlast hpos
    rcases run_serves hrun hasks timeoutMs time hlast hpos with hdeadline | ⟨hnone, -⟩
    · exact hdeadline
    · exact absurd (hnone ▸ hattached) (Finset.notMem_empty h)

end

/-- A transfer is attached, started by its first timeout, and asks for 200 ms. -/
theorem timeout_run :
    ∃ history s, Run (Step .common) (State.init fun _ => {}) history s ∧ AtRest s ∧
      s.timer.deadline = some 200000001 ∧ s.now = 1 ∧ s.exchange.attached.Nonempty ∧
      lastRequest history = some (200, 1) ∧ AddAsks history := by
  have start : Run (Step .common) (State.init fun _ => {}) [] _ := .nil
  have sent := start.append (send_run (h := 0) trivial rfl rfl)
  have drains := sent.append (wake_run rfl (by decide))
  have stored := drains.append (store_run (h := 0) (r := 0) rfl rfl rfl rfl rfl)
  have armed := stored.snoc (.multiTimer 0 ⟨0, 0, rfl⟩)
  have added := armed.snoc (.exchange (a := .addHandle 0 0 0) trivial rfl (.attach rfl (by decide)))
  have drained := added.snoc (.pendingEmpty rfl rfl rfl)
  have waits := drained.snoc (.batchDone rfl rfl)
  have later := waits.snoc (.elapse 1)
  have woken := later.snoc (.wake [.timer] rfl (by decide) (by decide) (by decide) (by decide))
  have acts := woken.snoc (.timer rfl rfl)
  have armed := acts.snoc (.multiTimer 200 trivial)
  have returned := armed.snoc (.actionReturns rfl)
  have checked := returned.snoc (.checkDone rfl rfl rfl)
  have waits := checked.snoc (.batchDone rfl rfl)
  refine ⟨_, _, waits, ⟨rfl, rfl, rfl, rfl⟩, by decide, rfl, ⟨0, by decide⟩, rfl, ?_⟩
  simp only [AddAsks, throughout_concat]
  simp [throughout_of_forall, sendMoves, wakeMoves, storeMoves, asked, noteAsked]

/-- The timer of that run is set for 200 ms behind the request. -/
theorem run_timeoutsKept_attached :
    ∃ (history : List (Move State Action)) (s : State),
      Run (Step .common) (State.init fun _ => {}) history s ∧ AddAsks history ∧
      s.exchange.attached.Nonempty ∧ lastRequest history = some (200, 1) ∧
      s.timer.deadline = some 200000001 := by
  obtain ⟨history, s, hrun, -, -, -, hattached, hlast, hasks⟩ := timeout_run
  have hkept := run_timeoutsKept hrun hasks
  exact ⟨history, s, hrun, hasks, hattached, hlast, hkept.kept hattached 200 1 hlast (by decide)⟩

end EventLoop

end CurlHttpfs.Manager
