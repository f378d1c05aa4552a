import CurlHttpfs.Manager.EventLoop
import CurlHttpfs.Manager.Handoff

/-!
# Runs of the event loop

Each step of the event loop either leaves the exchange alone or is one step
of it, so a run of the loop is a run of the exchange and inherits its
invariant. With the invariant none of the assertions on the map or the
promise can fail, and the ways to die shrink to the two reads and to
exceptions out of the header decoder.
-/

namespace CurlHttpfs.Manager.EventLoop

open Http Curl Kernel Transition

variable [HeaderMap]

/-- The steps of the exchange in a history. -/
def exchangeLabels (history : List (Move State Action)) : List Exchange.Action :=
  (labels history).filterMap visible

/-- A valid time is always accepted. -/
theorem settime_valid (s : State) {its : ITimerSpec} (hvalid : its.tvNsec < 1000000000) :
    s.settime its = { s with timer := ⟨if its.nanos = 0 then none else some (s.now + its.nanos)⟩ } := by
  simp only [State.settime, TimerFd.settime, if_pos hvalid]

/-- `MultiTimerCallback` always succeeds. -/
theorem settime_multiTimer (s : State) (timeoutMs : Int) :
    s.settime (multiTimerSpec timeoutMs) =
      { s with timer := ⟨if (multiTimerSpec timeoutMs).nanos = 0 then none
        else some (s.now + (multiTimerSpec timeoutMs).nanos)⟩ } :=
  settime_valid s (multiTimerSpec_nanos timeoutMs).1

/-- The disarm in `EventCallback` always succeeds. -/
theorem settime_zero (s : State) : s.settime ⟨0, 0⟩ = { s with timer := ⟨none⟩ } :=
  settime_valid s (by decide)

/-- The end of `EventCallback` moves to the next event and may disarm the timer. -/
theorem endEventCallback_eq (s : State) :
    s.endEventCallback =
      { s with bg := .dispatch, timer := if s.stillRunning = 0 then ⟨none⟩ else s.timer } := by
  unfold State.endEventCallback
  by_cases h : s.stillRunning = 0
  · simp only [if_pos h, settime_zero]
  · simp only [if_neg h]

/-- With an unread expiration `TimerCallback` goes on to libcurl. -/
theorem timerCallback_expired {s : State} (rest : List EpollEvent) (h : s.timer.Expired s.now) :
    s.timerCallback rest =
      { s with timer := ⟨none⟩, events := rest, bg := .socketAction .timerCallback } := by
  rw [State.timerCallback, TimerFd.read_expired h]

/-- Without one its assertion fails. -/
theorem timerCallback_blocked {s : State} (rest : List EpollEvent) (h : ¬s.timer.Expired s.now) :
    s.timerCallback rest = { s with bg := .dead .timerRead } := by
  rw [State.timerCallback, TimerFd.read_blocked h]

/-- A step with another label leaves the exchange alone. -/
theorem step_hidden {lib : Library} {s t : State} {a : Action} (hstep : Step lib s a t)
    (ha : visible a = none) : t.exchange = s.exchange := by
  cases hstep with
  | exchange hruns hsilent hstep => cases ha
  | signal hruns hstep hwrite => cases ha
  | signalFails hruns hstep hwrite => cases ha
  | timer hbg hevents =>
    unfold State.timerCallback
    split <;> rfl
  | event hbg hevents =>
    unfold State.eventRead
    split <;> rfl
  | multiTimer timeoutMs hinside => rw [settime_multiTimer]
  | @checkDone caller hbg hfocus hmsgs => cases caller <;> rfl
  | endEventCallback hbg => rw [endEventCallback_eq]
  | _ => rfl

omit [HeaderMap] in
/-- Only the label of a step of the exchange stands for it. -/
theorem exchange_of_visible {a : Action} {b : Exchange.Action} (ha : visible a = some b) : a = .exchange b := by
  cases a with
  | exchange c => exact congrArg Action.exchange (Option.some.inj ha)
  | _ => cases ha

/-- A step labelled with a step of the exchange is that step. -/
theorem step_shown {lib : Library} {s t : State} {a : Action} {b : Exchange.Action} (hstep : Step lib s a t)
    (ha : visible a = some b) : Exchange.Step lib s.exchange b t.exchange := by
  cases hstep with
  | exchange hruns hsilent hstep =>
    obtain rfl := Option.some.inj ha
    exact hstep
  | signal hruns hstep hwrite =>
    obtain rfl := Option.some.inj ha
    exact hstep
  | signalFails hruns hstep hwrite =>
    obtain rfl := Option.some.inj ha
    exact hstep
  | _ => cases ha

section

variable {lib : Library} {easy : CURL → Easy} {history : List (Move State Action)} {s : State}

/-- A run of the loop makes the steps of a run of the exchange. -/
theorem run_projects (hrun : Run (Step lib) (State.init easy) history s) :
    Run (Exchange.Step lib) (Exchange.init easy) (projected State.exchange visible history) s.exchange :=
  hrun.projects State.exchange visible (fun _ _ _ hstep ha => step_hidden hstep ha)
    fun _ _ _ _ hstep ha => step_shown hstep ha

/-- A run of the loop is a run of the exchange. -/
theorem run_exchange (hrun : Run (Step lib) (State.init easy) history s) :
    ∃ exchangeHistory, Run (Exchange.Step lib) (Exchange.init easy) exchangeHistory s.exchange ∧
      labels exchangeHistory = exchangeLabels history :=
  ⟨_, run_projects hrun, labels_projected State.exchange visible history⟩

/-- The invariant of the exchange holds in every reachable state of the loop. -/
theorem run_inv (hrun : Run (Step lib) (State.init easy) history s) : s.exchange.Inv := by
  obtain ⟨exchangeHistory, hexchange, -⟩ := run_exchange hrun
  exact Exchange.run_inv hexchange

/-- How a step can kill the background thread. -/
theorem step_dead {t : State} {a : Action} (hstep : Step lib s a t) {why : Death} (hdead : t.bg = .dead why) :
    s.bg = .dead why ∨ s.Aborts why ∨
      (why = .timerRead ∧ a = .dispatch .timer ∧ .timer ∈ s.events ∧ ¬s.timer.Expired s.now) ∨
      (why = .eventRead ∧ .event ∈ s.events ∧ s.eventFd.counter = 0) := by
  cases hstep with
  | exchange hruns hsilent hstep => exact .inl hdead
  | signal hruns hstep hwrite => exact .inl hdead
  | signalFails hruns hstep hwrite => exact .inl hdead
  | elapse d => exact .inl hdead
  | interrupted hbg => exact .inl hdead
  | wake batch hbg hsome hmax hdistinct hready => cases hdead
  | batchDone hbg hevents => cases hdead
  | timer hbg hevents =>
    by_cases hexpired : s.timer.Expired s.now
    · rw [timerCallback_expired _ hexpired] at hdead
      cases hdead
    · rw [timerCallback_blocked _ hexpired] at hdead
      have hwhy : why = .timerRead := (Background.dead.inj hdead).symm
      exact .inr (.inr (.inl ⟨hwhy, rfl, hevents ▸ List.mem_cons_self, hexpired⟩))
  | @event rest hbg hevents =>
    by_cases hzero : s.eventFd.counter = 0
    · simp only [State.eventRead, EventFd.read, if_pos hzero] at hdead
      have hwhy : why = .eventRead := (Background.dead.inj hdead).symm
      exact .inr (.inr (.inr ⟨hwhy, hevents ▸ List.mem_cons_self, hzero⟩))
    · simp only [State.eventRead, EventFd.read, if_neg hzero, reduceCtorEq] at hdead
  | socket hbg hevents => cases hdead
  | multiTimer timeoutMs hinside =>
    rw [settime_multiTimer] at hdead
    exact .inl hdead
  | actionReturns hbg => cases hdead
  | @checkDone caller hbg hfocus hmsgs => cases caller <;> cases hdead
  | endEventCallback hbg =>
    rw [endEventCallback_eq] at hdead
    cases hdead
  | pendingEmpty hbg hfocus hpending => cases hdead
  | abort haborts =>
    obtain rfl := Background.dead.inj hdead
    exact .inr (.inl haborts)

/-- The assertions the exchange makes on the map, the promise and the pointers. -/
def Handover : Death → Prop
  | .entryExists | .entryMissing | .promiseSet | .privateNull | .callback .badPointer
  | .callback .useAfterFree | .settime => True
  | .timerRead | .eventRead | .callback .outOfRange | .callback .emptyBack => False

/-- None of them fails in a state that satisfies the invariant. -/
theorem not_aborts {s : State} (hs : s.exchange.Inv) {why : Death} (hwhy : Handover why) :
    ¬s.Aborts why := by
  intro haborts
  cases why with
  | timerRead => exact hwhy
  | eventRead => exact hwhy
  | entryExists =>
    obtain ⟨-, r, hfocus, hfound⟩ := haborts
    obtain ⟨hsent, hopen, hnot⟩ := hs.custody.held hfocus
    obtain ⟨r', hentry⟩ := Option.ne_none_iff_exists'.mp hfound
    have hkey := hs.custody.keyed _ r' hentry
    have hother := hs.custody.entry_open (Exchange.not_closing hfocus nofun nofun _) hentry
    -- both requests are open and of one handle, so its client awaits both
    have hawaits := hs.custody.awaited r hsent.1 hopen
    have hawaits' := hs.custody.awaited r' hkey.1 hother
    have howner : s.exchange.owner r' = s.exchange.owner r := hkey.2
    rw [howner, hawaits] at hawaits'
    have he : r = r' := Option.some.inj hawaits'
    exact hnot (he ▸ hentry)
  | entryMissing =>
    obtain ⟨-, h, hfocus, hnone⟩ := haborts
    obtain ⟨r, hentry, -⟩ := hs.custody.closing h (.inr hfocus)
    cases hnone.symm.trans hentry
  | promiseSet =>
    obtain ⟨-, h, r, res, hfocus, hset⟩ := haborts
    exact hset (hs.custody.fulfilling h r res hfocus).2
  | privateNull =>
    obtain ⟨-, -, h, res, rest, hmsgs, hnull⟩ := haborts
    have hm : h ∈ s.exchange.finished := by
      simp only [Exchange.finished, hmsgs, List.filterMap_cons, CURLMsg.handle?, List.mem_cons, true_or]
    obtain ⟨r, -, -, hroute⟩ :=
      hs.attached_entry (hs.attachment.finished h hm) (hs.not_closing (.inr hm))
    cases hnull.symm.trans hroute.privateData
  | callback fault =>
    obtain ⟨-, h, ev, hrunning, hfails⟩ := haborts
    obtain ⟨r, -, -, htarget⟩ := hs.callback_target hrunning
    rw [htarget ev] at hfails
    rcases receiveRequest_fault hfails with rfl | rfl <;> exact hwhy
  | settime => exact haborts

/-- In every reachable state the exchange's own assertions have held. -/
theorem run_handover (hrun : Run (Step lib) (State.init easy) history s) {why : Death} (hwhy : Handover why) :
    s.bg ≠ .dead why := by
  refine hrun.induct (I := fun _ s => s.bg ≠ .dead why) (fun hdead => by cases hdead) ?_
  intro history s a t hpast halive hstep hdead
  rcases step_dead hstep hdead with hbefore | haborts | ⟨rfl, -⟩ | ⟨rfl, -⟩
  · exact halive hbefore
  · exact not_aborts (run_inv hpast) hwhy haborts
  · exact hwhy
  · exact hwhy

/-! ## Nothing in hand -/

/-- In `epoll_wait` the batch is finished, nothing is in hand and no message is unread. -/
structure AtRest (s : State) : Prop where
  waits : s.bg = .epollWait
  events : s.events = []
  focus : s.exchange.focus = .idle
  msgs : s.exchange.msgs = []

/-- The positions in which the background thread may have a request in hand. -/
def Handling : Background → Prop
  | .checkMulti _ | .drain | .dead _ => True
  | .epollWait | .dispatch | .socketAction _ | .afterCheck => False

/-- Clients and libcurl do not touch the locals of the background thread. -/
theorem focus_kept {s t : Exchange} {a : Exchange.Action} (hstep : Exchange.Step lib s a t)
    (ha : a.actor = .client ∨ a.actor = .libcurl) : t.focus = s.focus := by
  cases hstep with
  | infoSkip hfocus hmsgs => rcases ha with ha | ha <;> cases ha
  | infoRead code hfocus hmsgs hprivate => rcases ha with ha | ha <;> cases ha
  | setValue hfocus hunset => rcases ha with ha | ha <;> cases ha
  | removeHandle hfocus => rcases ha with ha | ha <;> cases ha
  | erase hfocus hfound => rcases ha with ha | ha <;> cases ha
  | pop hfocus hpending => rcases ha with ha | ha <;> cases ha
  | insert hfocus hhandle habsent => rcases ha with ha | ha <;> cases ha
  | attach hfocus hdetached => rcases ha with ha | ha <;> cases ha
  | attachFailed hfocus hcode => rcases ha with ha | ha <;> cases ha
  | _ => rfl

omit [HeaderMap] in
/-- Whoever moves elsewhere is a client or libcurl. -/
theorem actor_elsewhere {bg : Background} {actor : Actor} (hruns : bg.Runs actor) (hbg : ¬Handling bg) :
    actor = .client ∨ actor = .libcurl := by
  cases actor with
  | client => exact .inl rfl
  | libcurl => exact .inr rfl
  | checkMulti => cases bg <;> first | exact absurd trivial hbg | exact absurd hruns id
  | processPendingRequests => cases bg <;> first | exact absurd trivial hbg | exact absurd hruns id

/-- Outside the two loops over requests the background thread has none in hand. -/
theorem run_focus (hrun : Run (Step lib) (State.init easy) history s) (hbg : ¬Handling s.bg) :
    s.exchange.focus = .idle := by
  refine hrun.invariant (I := fun s => ¬Handling s.bg → s.exchange.focus = .idle) (fun _ => rfl) ?_ hbg
  intro s a t hI hstep hbg
  have hkept {b : Exchange.Action} {e : Exchange} (hstep : Exchange.Step lib s.exchange b e)
      (hruns : s.bg.Runs b.actor) (hbg : ¬Handling s.bg) : e.focus = .idle :=
    (focus_kept hstep (actor_elsewhere hruns hbg)).trans (hI hbg)
  have hfrom {pos : Background} (hpos : s.bg = pos) (hnot : ¬Handling pos) : s.exchange.focus = .idle :=
    hI (hpos ▸ hnot)
  cases hstep with
  | exchange hruns hsilent hstep => exact hkept hstep hruns hbg
  | signal hruns hstep hwrite => exact hkept hstep hruns hbg
  | signalFails hruns hstep hwrite => exact hkept hstep hruns hbg
  | elapse d => exact hI hbg
  | interrupted hwaits => exact hI hbg
  | wake batch hwaits hsome hmax hdistinct hready => exact hfrom hwaits id
  | batchDone hdispatch hevents => exact hfrom hdispatch id
  | @timer rest hdispatch hevents =>
    have hidle := hfrom hdispatch id
    unfold State.timerCallback
    split <;> exact hidle
  | @event rest hdispatch hevents =>
    have hidle := hfrom hdispatch id
    unfold State.eventRead
    split <;> exact hidle
  | socket hdispatch hevents => exact hfrom hdispatch id
  | multiTimer timeoutMs hinside =>
    rw [settime_multiTimer] at hbg ⊢
    exact hI hbg
  | actionReturns haction => exact absurd trivial hbg
  | @checkDone caller hcheck hfocus hmsgs => cases caller <;> exact hfocus
  | endEventCallback hafter =>
    rw [endEventCallback_eq]
    exact hfrom hafter id
  | pendingEmpty hdrain hfocus hpending => exact hfocus
  | abort haborts => exact absurd trivial hbg

end

/-! ## A request on its way -/

section

variable {lib : Library} {s : State} {h : CURL} {r : RequestId}

/-- A client has built a request, emplaced it and written the event descriptor. -/
def sends (s : State) (h : CURL) (eventFd : EventFd) : State :=
  { s with exchange := s.exchange.sends h, eventFd := eventFd }

/-- The steps of a client that sends a request. -/
def sendMoves (s : State) (h : CURL) (eventFd : EventFd) : List (Move State Action) :=
  let built := { s with exchange := s.exchange.build h }
  let queued := { s with exchange := (s.exchange.build h).enqueue h s.exchange.nextRequest }
  [⟨s, .exchange (.build h), built⟩, ⟨built, .exchange (.enqueue h s.exchange.nextRequest), queued⟩,
    ⟨queued, .exchange (.signal h true), sends s h eventFd⟩]

/-- A client between two calls can send a request. -/
theorem send_run {eventFd : EventFd} (hruns : s.bg.Runs .client) (hidle : s.exchange.client h = .idle)
    (hwrite : s.eventFd.write 1 = some eventFd) :
    Run (Step lib) s (sendMoves s h eventFd) (sends s h eventFd) := by
  have built : Run (Step lib) s _ _ := Run.nil.snoc (.exchange (a := .build h) hruns rfl (.build hidle))
  have queued := built.snoc (.exchange (a := .enqueue h s.exchange.nextRequest) hruns rfl
    (.enqueue (Function.update_self _ _ _)))
  exact queued.snoc (.signal hruns (.signal true (Function.update_self _ _ _)) hwrite)

/-- The background thread has read the event descriptor. -/
def wakes (s : State) : State := { s with eventFd := .zero, events := [], bg := .drain }

/-- Its steps from `epoll_wait` into `ProcessPendingRequests`. -/
def wakeMoves (s : State) : List (Move State Action) :=
  let woken := { s with events := [.event], bg := .dispatch }
  [⟨s, .wake [.event], woken⟩, ⟨woken, .dispatch .event, wakes s⟩]

/-- A positive counter wakes the background thread. -/
theorem wake_run (hbg : s.bg = .epollWait) (hcounter : 0 < s.eventFd.counter) :
    Run (Step lib) s (wakeMoves s) (wakes s) := by
  have hready : ∀ entry ∈ [EpollEvent.event], s.Ready entry := by
    intro entry hm
    obtain rfl := List.mem_singleton.mp hm
    exact hcounter
  have woken : Run (Step lib) s _ _ :=
    Run.nil.snoc (.wake [.event] hbg (by decide) (by decide) (by decide) hready)
  have hread : State.eventRead { s with events := [.event], bg := .dispatch } [] = wakes s := by
    simp only [State.eventRead, EventFd.read_positive hcounter, wakes]
  have drains := woken.snoc (.event rfl rfl)
  rw [hread] at drains
  exact drains

/-- The oldest request is stored under its handle. -/
def stores (s : State) (h : CURL) (r : RequestId) (rest : List RequestId) : State :=
  { s with exchange := (s.exchange.pop r rest).insert h r }

/-- The steps of `ProcessPendingRequests` up to `curl_multi_add_handle`. -/
def storeMoves (s : State) (h : CURL) (r : RequestId) (rest : List RequestId) : List (Move State Action) :=
  let held := { s with exchange := s.exchange.pop r rest }
  [⟨s, .exchange (.pop r), held⟩, ⟨held, .exchange (.insert h r), stores s h r rest⟩]

/-- A pending request whose handle is free can be stored. -/
theorem store_run {rest : List RequestId} (hbg : s.bg = .drain) (hfocus : s.exchange.focus = .idle)
    (hpending : s.exchange.pendingRequests = r :: rest) (hhandle : (s.exchange.request r).easyCurl = h)
    (habsent : s.exchange.ongoingRequests h = none) :
    Run (Step lib) s (storeMoves s h r rest) (stores s h r rest) := by
  have hruns : s.bg.Runs .processPendingRequests := hbg ▸ trivial
  have held : Run (Step lib) s _ _ := Run.nil.snoc (.exchange (a := .pop r) hruns rfl (.pop hfocus hpending))
  exact held.snoc (.exchange (a := .insert h r) hruns rfl (.insert rfl hhandle habsent))

end

end CurlHttpfs.Manager.EventLoop
