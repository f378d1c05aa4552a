import CurlHttpfs.Lib.Census
import CurlHttpfs.Manager.Duty
import CurlHttpfs.Manager.Stranded

/-!
# Every request is answered

The other half of safety: clients, background thread and libcurl do not only
do nothing wrong, together they get somewhere. Each request has a price, paid
off by the steps that carry it through the queue, the map and libcurl back to
its client. The network brings each transfer finitely many events that do not
finish it, such as a completed handshake or a part of the body. When attaches
succeed and the calls for sockets that finish nothing are paid from these
events, the steps that make progress are bounded, and where no such step is
left nobody waits any more.
-/

namespace CurlHttpfs.Manager

open Http Curl Kernel Transition

/-- What one return of `epoll_wait` may give to do, and the return itself. -/
def wakeEffort : Nat := 4 * maxEvents + 2

/-- What a transfer takes until its message is read. -/
def transferEffort : Nat := wakeEffort + 5

/-- What a queued request takes beside its steps: its transfer and the wakeup for it. -/
def requestEffort : Nat := transferEffort + wakeEffort

/-- What a client's call takes: its own steps, and the wakeup it asks for. -/
def ClientPc.effort (r : RequestId) : ClientPc → Nat
  | .enqueued r' => if r' = r then wakeEffort + 2 else 0
  | .waiting r' => if r' = r then 1 else 0
  | .idle | .built _ | .threw _ => 0

/-- A client has no part in the requests of others. -/
theorem ClientPc.effort_other {pc : ClientPc} {r : RequestId} (h : pc.request? ≠ some r) :
    pc.effort r = 0 := by
  cases pc with
  | enqueued r' | waiting r' =>
    have hne : r' ≠ r := fun he => h (congrArg some he)
    simp only [ClientPc.effort, if_neg hne]
  | _ => rfl

namespace Exchange

/-! ## Prices of steps -/

/-- Requests a step puts into the queue. -/
def Action.enqueues : Action → Nat
  | .enqueue _ _ => 1
  | _ => 0

/-- Requests a step hands to libcurl. -/
def Action.attaches : Action → Nat
  | .addHandle _ _ _ => 1
  | _ => 0

/-- Transfers a step finishes. -/
def Action.finishes : Action → Nat
  | .finish _ _ => 1
  | _ => 0

/-- What a step of a client takes off its call. -/
def Action.serves : Action → Nat
  | .signal _ _ => wakeEffort + 1
  | .receive _ _ => 1
  | _ => 0

/-- The steps that carry requests on: those of the background thread, of
waiting clients, and the end of a transfer. -/
def Action.progress : Action → Nat
  | .signal _ _ | .receive _ _ | .finish _ _ => 1
  | a => a.work

/-- Steps behind which sockets may have to be reported once more. -/
def Action.rousesSockets : Action → Nat
  | .finish _ _ | .notice | .addHandle _ _ _ => 1
  | _ => 0

/-- Steps behind which the event descriptor may have to be reported once more. -/
def Action.rousesEvent : Action → Nat
  | .signal _ _ => 1
  | _ => 0

/-- The price of what a step asks for: a request, or a message of another kind. -/
def Action.price : Action → Nat
  | .enqueue _ _ => 3 + requestEffort + wakeEffort + 2
  | .notice => 4 + wakeEffort
  | _ => 0

/-- Network events a step asks for, when each request takes so many. -/
def Action.asks (needs : RequestId → Nat) : Action → Nat
  | .enqueue _ r => needs r
  | _ => 0

/-- Network events that are to come for the transfer a step starts. -/
def Action.brings (needs : RequestId → Nat) : Action → Nat
  | .addHandle _ r _ => needs r
  | _ => 0

/-- The network events a request in hand will take. -/
def focusNeeds (needs : RequestId → Nat) : Focus → Nat
  | .held r | .adding _ r => needs r
  | .idle | .fulfilling _ _ _ | .removing _ | .erasing _ => 0

section

variable [HeaderMap] {lib : Library} {s t : Exchange} {a : Action}

/-- The requests that libcurl has not seen. -/
def unseen (s : Exchange) : Nat := s.pendingRequests.length + s.focus.collects.toNat

/-- What the calls of all clients take. -/
def clientEffort (s : Exchange) : Nat :=
  ∑ r ∈ Finset.range s.nextRequest, (s.client (s.owner r)).effort r

/-- Requests come in by `enqueue` and leave by `curl_multi_add_handle`. -/
theorem unseen_step (hstep : Step lib s a t) : t.unseen + a.attaches ≤ s.unseen + a.enqueues := by
  cases hstep with
  | enqueue hbuilt =>
    simp only [unseen, Exchange.enqueue, Action.attaches, Action.enqueues, List.length_append,
      List.length_singleton]
    omega
  | infoRead code hfocus hmsgs hprivate =>
    simp only [unseen, Exchange.infoRead, setInfo, hfocus, Focus.collects, Action.attaches, Action.enqueues]
    exact Nat.le_refl _
  | setValue hfocus hunset =>
    simp only [unseen, Exchange.setValue, setResponse, hfocus, Focus.collects, Action.attaches,
      Action.enqueues]
    exact Nat.le_refl _
  | removeHandle hfocus =>
    simp only [unseen, Exchange.removeHandle, hfocus, Focus.collects, Action.attaches, Action.enqueues]
    exact Nat.le_refl _
  | erase hfocus hfound =>
    simp only [unseen, Exchange.erase, hfocus, Focus.collects, Action.attaches, Action.enqueues]
    exact Nat.le_refl _
  | pop hfocus hpending =>
    simp only [unseen, Exchange.pop, hfocus, hpending, Focus.collects, Action.attaches, Action.enqueues,
      List.length_cons, Bool.toNat_true, Bool.toNat_false]
    omega
  | insert hfocus hhandle habsent =>
    simp only [unseen, Exchange.insert, hfocus, Focus.collects, Action.attaches, Action.enqueues]
    exact Nat.le_refl _
  | attach hfocus hdetached =>
    simp only [unseen, Exchange.attach, hfocus, Focus.collects, Action.attaches, Action.enqueues,
      Bool.toNat_true, Bool.toNat_false]
    omega
  | attachFailed hfocus hcode =>
    simp only [unseen, hfocus, Focus.collects, Action.attaches, Action.enqueues,
      Bool.toNat_true, Bool.toNat_false]
    omega
  | _ => exact Nat.le_refl _

/-- The network events that the requests libcurl has not seen will take. -/
def unseenNeeds (needs : RequestId → Nat) (s : Exchange) : Nat :=
  (s.pendingRequests.map needs).sum + focusNeeds needs s.focus

/-- The events of a request are asked for by `enqueue` and expected from `curl_multi_add_handle` on. -/
theorem unseenNeeds_step (needs : RequestId → Nat) (hstep : Step lib s a t) :
    t.unseenNeeds needs + a.brings needs ≤ s.unseenNeeds needs + a.asks needs := by
  cases hstep with
  | enqueue hbuilt =>
    simp only [unseenNeeds, Exchange.enqueue, Action.brings, Action.asks, List.map_append, List.map_cons,
      List.map_nil, List.sum_append, List.sum_cons, List.sum_nil]
    omega
  | infoRead code hfocus hmsgs hprivate =>
    simp only [unseenNeeds, Exchange.infoRead, setInfo, hfocus, focusNeeds, Action.brings, Action.asks]
    exact Nat.le_refl _
  | setValue hfocus hunset =>
    simp only [unseenNeeds, Exchange.setValue, setResponse, hfocus, focusNeeds, Action.brings, Action.asks]
    exact Nat.le_refl _
  | removeHandle hfocus =>
    simp only [unseenNeeds, Exchange.removeHandle, hfocus, focusNeeds, Action.brings, Action.asks]
    exact Nat.le_refl _
  | erase hfocus hfound =>
    simp only [unseenNeeds, Exchange.erase, hfocus, focusNeeds, Action.brings, Action.asks]
    exact Nat.le_refl _
  | pop hfocus hpending =>
    simp only [unseenNeeds, Exchange.pop, hfocus, hpending, focusNeeds, Action.brings, Action.asks,
      List.map_cons, List.sum_cons]
    omega
  | insert hfocus hhandle habsent =>
    simp only [unseenNeeds, Exchange.insert, hfocus, focusNeeds, Action.brings, Action.asks]
    exact Nat.le_refl _
  | attach hfocus hdetached =>
    simp only [unseenNeeds, Exchange.attach, hfocus, focusNeeds, Action.brings, Action.asks]
    exact Nat.le_refl _
  | attachFailed hfocus hcode =>
    simp only [unseenNeeds, hfocus, focusNeeds, Action.brings, Action.asks]
    exact Nat.le_refl _
  | _ => exact Nat.le_refl _

/-- Transfers start by an attach and end by a message. -/
theorem running_step (hstep : Step lib s a t) :
    t.running.card + a.finishes ≤ s.running.card + a.attaches := by
  cases hstep with
  | @finish h res hrunning =>
    have hcard := Finset.card_erase_add_one hrunning
    simp only [Exchange.finish, Action.finishes, Action.attaches]
    omega
  | @removeHandle h hfocus => exact Finset.card_le_card (Finset.erase_subset h s.running)
  | @attach h r hfocus hdetached => exact Finset.card_insert_le h s.running
  | attachFailed hfocus hcode => exact Nat.le_succ _
  | _ => exact Nat.le_refl _

/-- The calls of the clients do not depend on what else the exchange holds. -/
theorem clientEffort_congr (hclient : t.client = s.client) (hnext : t.nextRequest = s.nextRequest)
    (howner : ∀ r, t.owner r = s.owner r) : t.clientEffort = s.clientEffort := by
  simp only [clientEffort, hclient, hnext, howner]

/-- One client moves on within its call. -/
theorem clientEffort_move {h : CURL} {r : RequestId} (pc : ClientPc) (hs : Custody s)
    (hconcern : (s.client h).request? = some r) (hpc : ∀ r', pc.request? = some r' → r' = r)
    (hclient : t.client = Function.update s.client h pc) (hnext : t.nextRequest = s.nextRequest)
    (hrequest : t.request = s.request) :
    t.clientEffort + (s.client h).effort r = s.clientEffort + pc.effort r := by
  obtain ⟨hlt, howner⟩ := hs.concern h r hconcern
  have howners (r' : RequestId) : t.owner r' = s.owner r' := by simp only [owner, hrequest]
  have hchange := sum_change (f := fun r => (s.client (s.owner r)).effort r)
    (g := fun r => (t.client (t.owner r)).effort r) (Finset.mem_range.mpr hlt) fun j _ hj => ?_
  · simp only [howners, howner, hclient, Function.update_self] at hchange
    simp only [clientEffort, howners, hclient, hnext]
    exact hchange
  · rw [howners, hclient]
    by_cases he : s.owner j = h
    · rw [he, Function.update_self, ClientPc.effort_other fun hpc' => hj (hpc j hpc')]
      refine (ClientPc.effort_other fun hother => ?_).symm
      exact hj (Option.some.inj (hother.symm.trans hconcern))
    · rw [Function.update_of_ne he]

/-- A call begins with `enqueue`, and each step of the client takes its part off it. -/
theorem clientEffort_step (hs : Inv s) (hstep : Step lib s a t) :
    t.clientEffort + a.serves ≤ s.clientEffort + (wakeEffort + 2) * a.enqueues := by
  cases hstep with
  | @build h hidle =>
    have hnew : ((s.build h).client ((s.build h).owner s.nextRequest)).effort s.nextRequest = 0 := by
      rw [(build_new s h).1]
      simp only [build, Function.update_self, ClientPc.effort]
    have hold : ∀ r ∈ Finset.range s.nextRequest,
        ((s.build h).client ((s.build h).owner r)).effort r = (s.client (s.owner r)).effort r := by
      intro r hr
      have hne : r ≠ s.nextRequest := Nat.ne_of_lt (Finset.mem_range.mp hr)
      rw [(build_old h hne).1]
      by_cases he : s.owner r = h
      · rw [he, hidle]
        simp only [build, Function.update_self, ClientPc.effort]
      · simp only [build, Function.update_of_ne he]
    have hsum := Finset.sum_range_succ (fun r => ((s.build h).client ((s.build h).owner r)).effort r)
      s.nextRequest
    rw [hnew, Finset.sum_congr rfl hold, Nat.add_zero] at hsum
    exact Nat.le_of_eq hsum
  | setUrl url hbuilt =>
    exact Nat.le_of_eq (clientEffort_congr rfl rfl (setUrl_unmoved s _ _ url).owner)
  | @enqueue h r hbuilt =>
    have hmove := clientEffort_move (t := s.enqueue h r) (.enqueued r) hs.custody (by rw [hbuilt]; rfl)
      (fun _ he => (Option.some.inj he).symm) rfl rfl rfl
    rw [hbuilt] at hmove
    simp only [ClientPc.effort, if_true] at hmove
    simp only [Action.serves, Action.enqueues]
    omega
  | @signal h r ok henqueued =>
    have hmove := clientEffort_move
      (t := { s with client := Function.update s.client h (if ok = true then .waiting r else .threw r) })
      (if ok = true then .waiting r else .threw r) hs.custody (by rw [henqueued]; rfl)
      (fun r' he => by cases ok <;> exact (Option.some.inj he).symm) rfl rfl rfl
    rw [henqueued] at hmove
    cases ok <;> simp only [ClientPc.effort, if_true, Bool.false_eq_true, if_false] at hmove <;>
      simp only [Action.serves, Action.enqueues, if_true, Bool.false_eq_true, if_false] <;> omega
  | @receive h r hwaiting hset =>
    have hmove := clientEffort_move (t := { s with client := Function.update s.client h .idle }) .idle
      hs.custody (by rw [hwaiting]; rfl) (fun _ he => by cases he) rfl rfl rfl
    rw [hwaiting] at hmove
    simp only [ClientPc.effort, if_true] at hmove
    simp only [Action.serves, Action.enqueues]
    omega
  | callback hrunning htarget hreceive =>
    exact Nat.le_of_eq (clientEffort_congr rfl rfl (setInfo_unmoved s _ _).owner)
  | infoRead code hfocus hmsgs hprivate =>
    exact Nat.le_of_eq (clientEffort_congr rfl rfl (setInfo_unmoved s _ _).owner)
  | @setValue h r res hfocus hunset =>
    exact Nat.le_of_eq (clientEffort_congr rfl rfl (setValue_owner lib s h r res))
  | _ => exact Nat.le_refl _

/-- What it takes until every client has its response, apart from duties and events. -/
def effort (s : Exchange) : Nat :=
  requestEffort * s.unseen + transferEffort * s.running.card + s.clientEffort

/-- Progress is paid from effort and duties, and so is what it gives `epoll_wait` to report. -/
theorem effort_step (hs : Inv s) (hstep : Step lib s a t) :
    t.effort + a.progress + wakeEffort * (a.rousesSockets + a.rousesEvent) + a.load ≤
      s.effort + a.price + a.work := by
  have hunseen := unseen_step hstep
  have hrunning := running_step hstep
  have hclients := clientEffort_step hs hstep
  simp only [effort, requestEffort, transferEffort, wakeEffort, maxEvents] at hclients ⊢
  cases a <;> simp only [Action.work, Action.actor, Action.load, Action.attaches, Action.enqueues,
    Action.finishes, Action.serves, Action.progress, Action.rousesSockets, Action.rousesEvent, Action.price,
    requestEffort, transferEffort, wakeEffort, maxEvents] at hunseen hrunning hclients ⊢ <;> omega

/-- Apart from starts and ends of transfers, what runs stays, and only `CheckMulti` takes messages. -/
theorem transfers_kept (hs : Inv s) (hstep : Step lib s a t) (ha : a.rousesSockets = 0) :
    t.running = s.running ∧ (a.actor ≠ .checkMulti → t.msgs = s.msgs) := by
  cases hstep with
  | finish res hrunning => cases ha
  | notice => cases ha
  | attach hfocus hdetached => cases ha
  | attachFailed hfocus hcode => cases ha
  | infoSkip hfocus hmsgs => exact ⟨rfl, fun hactor => absurd rfl hactor⟩
  | infoRead code hfocus hmsgs hprivate => exact ⟨rfl, fun hactor => absurd rfl hactor⟩
  | @removeHandle h hfocus =>
    have hdone := (hs.attachment.removing h hfocus).2.1
    exact ⟨Finset.erase_eq_of_notMem hdone, fun hactor => absurd rfl hactor⟩
  | _ => exact ⟨rfl, fun _ => rfl⟩

end

end Exchange

/-! ## What `epoll_wait` has to report -/

/-- The entry is a socket. -/
def EpollEvent.isSocket : EpollEvent → Bool
  | .socket _ _ _ => true
  | .timer | .event => false

/-- libcurl is called for a socket. -/
def Background.handlesSocket : Background → Bool
  | .socketAction (.eventCallback _ _) => true
  | _ => false

section

variable [HeaderMap]

/-- A socket has been reported, and no message has come of it yet. -/
def State.socketReported (s : State) : Bool :=
  s.events.any EpollEvent.isSocket || (s.bg.handlesSocket && s.exchange.msgs.isEmpty)

/-- Transfers run and no socket is reported. -/
def State.socketsDue (s : State) : Nat :=
  if s.exchange.running.Nonempty ∧ s.socketReported = false then 1 else 0

/-- The counter is positive and not reported. -/
def State.eventDue (s : State) : Nat := if 0 < s.eventFd.counter ∧ .event ∉ s.events then 1 else 0

/-- The timer is set and not reported. -/
def State.timerDue (s : State) : Nat := if s.timer.deadline ≠ none ∧ .timer ∉ s.events then 1 else 0

/-- What it takes until every client has its response. -/
def State.effort (s : State) : Nat :=
  s.duty + s.exchange.effort + wakeEffort * (s.socketsDue + s.eventDue + s.timerDue)

end

namespace EventLoop

/-- The steps that carry requests on. -/
def Action.progress : Action → Nat
  | .exchange a => a.progress
  | .wake _ => 1
  | a => a.work

/-- The price of what a step asks for. -/
def Action.price : Action → Nat
  | .exchange a => a.price
  | .multiTimer _ => wakeEffort
  | _ => 0

/-- Steps behind which the timer may have to be reported once more. -/
def Action.rousesTimer : Action → Nat
  | .multiTimer _ => 1
  | _ => 0

section

variable [HeaderMap] {lib : Library} {easy : CURL → Easy} {history : List (Move State Action)} {s t : State}
  {a : Action}

/-- What is asked of libcurl and kernel: attaches succeed, callbacks do not
throw, sockets are reported only while a transfer runs, and the timer is
reported by itself. -/
def Cooperates (s : State) : Action → Prop
  | .exchange (.addHandle _ _ code) => code = 0
  | .wake batch =>
    batch = [.timer] ∨ .timer ∉ batch ∧ (s.exchange.running = ∅ → ∀ entry ∈ batch, entry = .event)
  | .abort _ => False
  | _ => True

/-- The steps in which libcurl and kernel do what is asked of them. -/
def Cooperative (lib : Library) (s : State) (a : Action) (t : State) : Prop := Step lib s a t ∧ Cooperates s a

/-- A call for a socket returns while transfers run and none of them is finished. -/
def Unfinished (s : State) : Prop :=
  s.bg.handlesSocket = true ∧ s.exchange.running.Nonempty ∧ s.exchange.msgs.isEmpty = true

instance (s : State) : Decidable (Unfinished s) :=
  inferInstanceAs (Decidable (s.bg.handlesSocket = true ∧ s.exchange.running.Nonempty ∧
    s.exchange.msgs.isEmpty = true))

/-- Network events used up by a step: a call for a socket that finishes nothing takes one. -/
def consumes (s : State) : Action → Nat
  | .actionReturns => if Unfinished s then 1 else 0
  | _ => 0

omit [HeaderMap] in
/-- What is due behind a step was due before it. -/
theorem due_le {p q : Prop} [Decidable p] [Decidable q] (h : p → q) :
    (if p then 1 else 0) ≤ if q then 1 else 0 := by
  by_cases hp : p
  · rw [if_pos hp, if_pos (h hp)]
  · rw [if_neg hp]
    exact Nat.zero_le _

/-- Nothing new is to be reported while no transfer starts and what was reported stays so. -/
theorem socketsDue_le (hrunning : t.exchange.running = s.exchange.running)
    (hreported : s.exchange.running.Nonempty → s.socketReported = true → t.socketReported = true) :
    t.socketsDue ≤ s.socketsDue := by
  unfold State.socketsDue
  rw [hrunning]
  refine due_le fun hdue => ⟨hdue.1, ?_⟩
  by_contra hsome
  rw [Bool.not_eq_false] at hsome
  cases hdue.2.symm.trans (hreported hdue.1 hsome)

theorem socketsDue_le_one (s : State) : s.socketsDue ≤ 1 := by
  unfold State.socketsDue
  split <;> omega

/-- A socket of the batch is reported. -/
theorem reported_of_events (h : t.events.any EpollEvent.isSocket = true) : t.socketReported = true := by
  rw [State.socketReported, h, Bool.true_or]

/-- Outside a call for a socket only the batch reports one. -/
theorem events_of_reported (hbg : s.bg.handlesSocket = false) (h : s.socketReported = true) :
    s.events.any EpollEvent.isSocket = true := by
  rw [State.socketReported, hbg, Bool.false_and, Bool.or_false] at h
  exact h

/-- `MultiTimerCallback` moves nothing but the timer. -/
theorem multiTimer_moves (s : State) (timeoutMs : Int) :
    ∃ timer, s.settime (multiTimerSpec timeoutMs) = { s with timer := timer } :=
  ⟨_, settime_multiTimer s timeoutMs⟩

/-- What a step of the exchange leaves alone. -/
structure ExchangeFrame (lib : Library) (s : State) (b : Exchange.Action) (t : State) : Prop where
  step : Exchange.Step lib s.exchange b t.exchange
  runs : s.bg.Runs b.actor
  bg : t.bg = s.bg
  events : t.events = s.events
  timer : t.timer = s.timer
  eventFd : b.rousesEvent = 0 → t.eventFd = s.eventFd

/-- A step of the exchange moves at most the event descriptor beside it. -/
theorem exchange_frame {b : Exchange.Action} (hstep : Step lib s (.exchange b) t) :
    ExchangeFrame lib s b t := by
  cases hstep with
  | exchange hruns hsilent hstep => exact ⟨hstep, hruns, rfl, rfl, rfl, fun _ => rfl⟩
  | signal hruns hstep hwrite => exact ⟨hstep, hruns, rfl, rfl, rfl, fun he => by cases he⟩
  | signalFails hruns hstep hwrite => exact ⟨hstep, hruns, rfl, rfl, rfl, fun _ => rfl⟩

/-- A step of the exchange gives sockets to report only by its own kind. -/
theorem socketsDue_exchange {b : Exchange.Action} (hinv : s.exchange.Inv) (hframe : ExchangeFrame lib s b t) :
    t.socketsDue ≤ s.socketsDue + b.rousesSockets := by
  by_cases hb : b.rousesSockets = 0
  · obtain ⟨hrunning, hmsgs⟩ := Exchange.transfers_kept hinv hframe.step hb
    refine Nat.le_trans (socketsDue_le hrunning fun _ hreported => ?_) (Nat.le_add_right _ _)
    have hruns := hframe.runs
    rw [State.socketReported, hframe.bg, hframe.events]
    rw [State.socketReported] at hreported
    cases hsocket : s.bg.handlesSocket with
    | false =>
      rw [hsocket] at hreported
      exact hreported
    | true =>
      have hactor : b.actor ≠ .checkMulti := by
        intro hactor
        rw [hactor] at hruns
        cases hpos : s.bg <;> rw [hpos] at hruns hsocket <;> first | exact hruns | cases hsocket
      rw [hsocket] at hreported
      rw [hmsgs hactor]
      exact hreported
  · have hone := socketsDue_le_one t
    omega

/-- A step beside the exchange gives sockets to report only where a call for one finished nothing. -/
theorem socketsDue_hidden (hshape : Shape s) (hstep : Step lib s a t) (hcooperates : Cooperates s a)
    (ha : visible a = none) : t.socketsDue ≤ s.socketsDue + consumes s a := by
  -- outside a call for a socket the batch decides
  have hbatch (hbg : s.bg.handlesSocket = false) (hexchange : t.exchange = s.exchange)
      (hevents : s.events.any EpollEvent.isSocket = true → t.events.any EpollEvent.isSocket = true) :
      t.socketsDue ≤ s.socketsDue := by
    refine socketsDue_le (congrArg Exchange.running hexchange) fun _ hreported => ?_
    exact reported_of_events (hevents (events_of_reported hbg hreported))
  cases hstep with
  | exchange hruns hsilent hstep => cases ha
  | signal hruns hstep hwrite => cases ha
  | signalFails hruns hstep hwrite => cases ha
  | elapse d => exact Nat.le_refl _
  | interrupted hbg => exact Nat.le_refl _
  | wake batch hbg hsome hmax hdistinct hready =>
    refine hbatch (hbg ▸ rfl) rfl fun hany => ?_
    rw [hshape.finished hbg] at hany
    cases hany
  | batchDone hbg hevents => exact hbatch (hbg ▸ rfl) rfl id
  | @timer rest hbg hevents =>
    by_cases hexpired : s.timer.Expired s.now
    · rw [timerCallback_expired rest hexpired] at hbatch ⊢
      refine hbatch (hbg ▸ rfl) rfl fun hany => ?_
      rw [hevents] at hany
      exact hany
    · rw [timerCallback_blocked rest hexpired] at hbatch ⊢
      exact hbatch (hbg ▸ rfl) rfl id
  | @event rest hbg hevents =>
    have hstep : Step lib s (.dispatch .event) (s.eventRead rest) := .event hbg hevents
    refine hbatch (hbg ▸ rfl) (step_hidden hstep rfl) fun hany => ?_
    unfold State.eventRead
    split
    · rw [hevents] at hany
      exact hany
    · exact hany
  | @socket fd epollIn epollOut rest hbg hevents =>
    have hmsgs : s.exchange.msgs = [] := hshape.read (hbg ▸ rfl)
    refine socketsDue_le rfl fun _ _ => ?_
    simp only [State.socketReported, State.eventCallback, Background.handlesSocket, hmsgs, List.isEmpty_nil,
      Bool.and_self, Bool.or_true]
  | multiTimer timeoutMs hinside =>
    obtain ⟨timer, htimer⟩ := multiTimer_moves s timeoutMs
    rw [htimer]
    exact Nat.le_refl _
  | @actionReturns caller hbg =>
    by_cases hcall : Unfinished s
    · have hone := socketsDue_le_one (s.actionReturns caller)
      rw [consumes, if_pos hcall]
      omega
    · rw [consumes, if_neg hcall]
      refine socketsDue_le rfl fun hrunning hreported => ?_
      rw [State.socketReported] at hreported
      rcases (Bool.or_eq_true _ _).mp hreported with hany | hsocket
      · exact reported_of_events hany
      · obtain ⟨hsocket, hmsgs⟩ := (Bool.and_eq_true _ _).mp hsocket
        exact absurd ⟨hsocket, hrunning, hmsgs⟩ hcall
  | @checkDone caller hbg hfocus hmsgs => cases caller <;> exact hbatch (hbg ▸ rfl) rfl id
  | endEventCallback hbg =>
    rw [endEventCallback_eq] at hbatch ⊢
    exact hbatch (hbg ▸ rfl) rfl id
  | pendingEmpty hbg hfocus hpending => exact hbatch (hbg ▸ rfl) rfl id
  | abort haborts => exact absurd hcooperates id

/-- The event descriptor has to be reported once more only behind a write. -/
theorem eventDue_le (heventFd : t.eventFd = s.eventFd) (hevents : .event ∈ s.events → .event ∈ t.events) :
    t.eventDue ≤ s.eventDue := by
  unfold State.eventDue
  rw [heventFd]
  exact due_le fun hdue => ⟨hdue.1, fun hm => hdue.2 (hevents hm)⟩

theorem eventDue_exchange {b : Exchange.Action} (hframe : ExchangeFrame lib s b t) :
    t.eventDue ≤ s.eventDue + b.rousesEvent := by
  by_cases hb : b.rousesEvent = 0
  · have hle := eventDue_le (hframe.eventFd hb) fun hm => hframe.events.symm ▸ hm
    omega
  · have hone : t.eventDue ≤ 1 := by
      unfold State.eventDue
      split <;> omega
    omega

/-- A step beside the exchange leaves the event descriptor or reads it. -/
theorem eventDue_hidden (hshape : Shape s) (hwakeful : Wakeful s) (hstep : Step lib s a t)
    (ha : visible a = none) : t.eventDue ≤ s.eventDue := by
  cases hstep with
  | exchange hruns hsilent hstep => cases ha
  | signal hruns hstep hwrite => cases ha
  | signalFails hruns hstep hwrite => cases ha
  | elapse d => exact Nat.le_refl _
  | interrupted hbg => exact Nat.le_refl _
  | wake batch hbg hsome hmax hdistinct hready =>
    refine eventDue_le rfl fun hm => ?_
    rw [hshape.finished hbg] at hm
    exact absurd hm List.not_mem_nil
  | batchDone hbg hevents => exact eventDue_le rfl id
  | @timer rest hbg hevents =>
    by_cases hexpired : s.timer.Expired s.now
    · rw [timerCallback_expired rest hexpired]
      refine eventDue_le rfl fun hm => ?_
      rw [hevents] at hm
      exact List.mem_of_ne_of_mem (fun he => by cases he) hm
    · rw [timerCallback_blocked rest hexpired]
      exact eventDue_le rfl id
  | @event rest hbg hevents =>
    rw [eventRead_eq hwakeful hevents]
    unfold State.eventDue
    rw [if_neg fun hdue => absurd hdue.1 (Nat.lt_irrefl 0)]
    exact Nat.zero_le _
  | @socket fd epollIn epollOut rest hbg hevents =>
    refine eventDue_le rfl fun hm => ?_
    rw [hevents] at hm
    exact List.mem_of_ne_of_mem (fun he => by cases he) hm
  | multiTimer timeoutMs hinside =>
    obtain ⟨timer, htimer⟩ := multiTimer_moves s timeoutMs
    rw [htimer]
    exact eventDue_le rfl id
  | actionReturns hbg => exact eventDue_le rfl id
  | @checkDone caller hbg hfocus hmsgs => cases caller <;> exact eventDue_le rfl id
  | endEventCallback hbg =>
    rw [endEventCallback_eq]
    exact eventDue_le rfl id
  | pendingEmpty hbg hfocus hpending => exact eventDue_le rfl id
  | abort haborts => exact eventDue_le rfl id

/-- The timer has to be reported once more only when it is set. -/
theorem timerDue_le (htimer : t.timer = s.timer ∨ t.timer = ⟨none⟩)
    (hevents : .timer ∈ s.events → t.timer ≠ ⟨none⟩ → .timer ∈ t.events) : t.timerDue ≤ s.timerDue := by
  unfold State.timerDue
  refine due_le fun hdue => ?_
  have hset : t.timer ≠ ⟨none⟩ := fun he => hdue.1 (congrArg TimerFd.deadline he)
  have hsame : t.timer = s.timer := htimer.resolve_right hset
  exact ⟨hsame ▸ hdue.1, fun hm => hdue.2 (hevents hm hset)⟩

/-- A step beside the exchange reads or disarms the timer, or is a request of libcurl. -/
theorem timerDue_hidden (hshape : Shape s) (hwakeful : Wakeful s) (hstep : Step lib s a t)
    (ha : visible a = none) : t.timerDue ≤ s.timerDue + a.rousesTimer := by
  have hkept (hle : t.timerDue ≤ s.timerDue) : t.timerDue ≤ s.timerDue + a.rousesTimer :=
    Nat.le_trans hle (Nat.le_add_right _ _)
  cases hstep with
  | exchange hruns hsilent hstep => cases ha
  | signal hruns hstep hwrite => cases ha
  | signalFails hruns hstep hwrite => cases ha
  | elapse d => exact hkept (timerDue_le (.inl rfl) fun hm _ => hm)
  | interrupted hbg => exact hkept (timerDue_le (.inl rfl) fun hm _ => hm)
  | wake batch hbg hsome hmax hdistinct hready =>
    refine hkept (timerDue_le (.inl rfl) fun hm _ => ?_)
    rw [hshape.finished hbg] at hm
    exact absurd hm List.not_mem_nil
  | batchDone hbg hevents => exact hkept (timerDue_le (.inl rfl) fun hm _ => hm)
  | @timer rest hbg hevents =>
    by_cases hexpired : s.timer.Expired s.now
    · rw [timerCallback_expired rest hexpired] at hkept ⊢
      exact hkept (timerDue_le (.inr rfl) fun _ hset => absurd rfl hset)
    · rw [timerCallback_blocked rest hexpired] at hkept ⊢
      exact hkept (timerDue_le (.inl rfl) fun hm _ => hm)
  | @event rest hbg hevents =>
    rw [eventRead_eq hwakeful hevents] at hkept ⊢
    refine hkept (timerDue_le (.inl rfl) fun hm _ => ?_)
    rw [hevents] at hm
    exact List.mem_of_ne_of_mem (fun he => by cases he) hm
  | @socket fd epollIn epollOut rest hbg hevents =>
    refine hkept (timerDue_le (.inl rfl) fun hm _ => ?_)
    rw [hevents] at hm
    exact List.mem_of_ne_of_mem (fun he => by cases he) hm
  | multiTimer timeoutMs hinside =>
    have hone (t : State) : t.timerDue ≤ 1 := by
      unfold State.timerDue
      split <;> omega
    exact Nat.le_trans (hone _) (Nat.le_add_left _ _)
  | actionReturns hbg => exact hkept (timerDue_le (.inl rfl) fun hm _ => hm)
  | @checkDone caller hbg hfocus hmsgs =>
    cases caller <;> exact hkept (timerDue_le (.inl rfl) fun hm _ => hm)
  | endEventCallback hbg =>
    rw [endEventCallback_eq] at hkept ⊢
    refine hkept (timerDue_le ?_ fun hm _ => hm)
    dsimp only
    split
    · exact .inr rfl
    · exact .inl rfl
  | pendingEmpty hbg hfocus hpending => exact hkept (timerDue_le (.inl rfl) fun hm _ => hm)
  | abort haborts => exact hkept (timerDue_le (.inl rfl) fun hm _ => hm)

/-- A cooperative return of `epoll_wait` reports something that was due. -/
theorem wake_reports {batch : List EpollEvent} (hshape : Shape s) (hwakeful : Wakeful s)
    (hstep : Step lib s (.wake batch) t) (hcooperates : Cooperates s (.wake batch)) :
    t.socketsDue + t.eventDue + t.timerDue + 1 ≤ s.socketsDue + s.eventDue + s.timerDue := by
  have hsockets : t.socketsDue ≤ s.socketsDue := socketsDue_hidden hshape hstep hcooperates rfl
  have hevent := eventDue_hidden hshape hwakeful hstep rfl
  have htimer : t.timerDue ≤ s.timerDue := timerDue_hidden hshape hwakeful hstep rfl
  cases hstep with
  | wake _ hbg hsome hmax hdistinct hready =>
    have hnone : s.events = [] := hshape.finished hbg
    by_cases hm : .timer ∈ batch
    · obtain ⟨d, hd, -⟩ := hready .timer hm
      have hset : s.timer.deadline ≠ none := fun he => by cases he.symm.trans hd
      have hbefore : s.timerDue = 1 := if_pos ⟨hset, hnone ▸ List.not_mem_nil⟩
      have hafter : State.timerDue { s with events := batch, bg := .dispatch } = 0 :=
        if_neg fun hdue => hdue.2 hm
      omega
    by_cases hm' : .event ∈ batch
    · have hbefore : s.eventDue = 1 := if_pos ⟨hready .event hm', hnone ▸ List.not_mem_nil⟩
      have hafter : State.eventDue { s with events := batch, bg := .dispatch } = 0 :=
        if_neg fun hdue => hdue.2 hm'
      omega
    -- neither timer nor counter, so every entry is a socket
    obtain ⟨entry, hentry⟩ := List.exists_mem_of_ne_nil batch hsome
    have hsocket : entry.isSocket = true := by
      cases entry with
      | timer => exact absurd hentry hm
      | event => exact absurd hentry hm'
      | socket fd epollIn epollOut => rfl
    have hrunning : s.exchange.running.Nonempty := by
      rcases hcooperates with rfl | ⟨-, honly⟩
      · exact absurd (List.mem_singleton_self _) hm
      · refine Finset.nonempty_iff_ne_empty.mpr fun hempty => hm' ?_
        exact honly hempty entry hentry ▸ hentry
    have hunreported : s.socketReported = false := by
      rw [State.socketReported, hnone, hbg]
      rfl
    have hreported : State.socketReported { s with events := batch, bg := .dispatch } = true :=
      reported_of_events (List.any_eq_true.mpr ⟨entry, hentry, hsocket⟩)
    have hbefore : s.socketsDue = 1 := if_pos ⟨hrunning, hunreported⟩
    have hafter : State.socketsDue { s with events := batch, bg := .dispatch } = 0 :=
      if_neg fun hdue => by cases hreported.symm.trans hdue.2
    omega

/-- Progress is paid from the effort, from what is asked for and from the network's events. -/
theorem effort_step (hinv : s.exchange.Inv) (hshape : Shape s) (hwakeful : Wakeful s)
    (hstep : Cooperative lib s a t) :
    t.effort + a.progress ≤ s.effort + a.price + wakeEffort * consumes s a := by
  obtain ⟨hstep, hcooperates⟩ := hstep
  have hduty := duty_step hstep
  simp only [State.effort, wakeEffort, maxEvents]
  cases hvisible : visible a with
  | some b =>
    obtain rfl := exchange_of_visible hvisible
    have hframe := exchange_frame hstep
    have heffort := Exchange.effort_step hinv hframe.step
    have hsockets := socketsDue_exchange hinv hframe
    have hevent := eventDue_exchange hframe
    have htimer : t.timerDue = s.timerDue := by simp only [State.timerDue, hframe.timer, hframe.events]
    simp only [Action.work, Action.load] at hduty
    simp only [wakeEffort, maxEvents] at heffort
    simp only [Action.progress, Action.price]
    omega
  | none =>
    have hexchange := step_hidden hstep hvisible
    have hsockets := socketsDue_hidden hshape hstep hcooperates hvisible
    have hevent := eventDue_hidden hshape hwakeful hstep hvisible
    have htimer := timerDue_hidden hshape hwakeful hstep hvisible
    rw [hexchange]
    cases a with
    | exchange b => cases hvisible
    | wake batch =>
      have hreports := wake_reports hshape hwakeful hstep hcooperates
      have hlength : batch.length ≤ maxEvents := by
        cases hstep with
        | wake _ hbg hsome hmax hdistinct hready => exact hmax
      simp only [Action.work, Action.load, maxEvents] at hduty hlength
      simp only [Action.progress, Action.price]
      omega
    | multiTimer timeoutMs =>
      simp only [Action.work, Action.load, Action.rousesTimer] at hduty htimer
      simp only [Action.progress, Action.price, Action.work, wakeEffort, maxEvents]
      omega
    | _ =>
      simp only [Action.work, Action.load, Action.rousesTimer] at hduty htimer
      simp only [Action.progress, Action.price, Action.work]
      omega

/-! ## Somebody can always go on -/

/-- Every attach of a run has succeeded. -/
def AllAttached (history : List (Move State Action)) : Prop :=
  ∀ h r code, .addHandle h r code ∈ exchangeLabels history → code = 0

/-- A reachable state in which nothing has gone wrong and nothing is about to. -/
structure Sound (lib : Library) (easy : CURL → Easy) (s : State) : Prop where
  /-- A run with successful attaches leads to it. -/
  reached : ∃ history, Run (Step lib) (State.init easy) history s ∧ AllAttached history
  /-- The background thread lives. -/
  alive : ∀ why, s.bg ≠ .dead why
  /-- A reported timer is the whole batch, and can still be read. -/
  alone : .timer ∈ s.events → s.bg = .dispatch ∧ s.events = [.timer] ∧ s.timer.Expired s.now

/-- A successful attach keeps the record of successful attaches. -/
theorem AllAttached.snoc (hall : AllAttached history) (hcooperates : Cooperates s a) :
    AllAttached (history ++ [⟨s, a, t⟩]) := by
  intro h r code hm
  rw [exchangeLabels, labels_snoc, List.filterMap_append] at hm
  rcases List.mem_append.mp hm with hbefore | hnow
  · exact hall h r code hbefore
  · obtain ⟨b, hb, hvisible⟩ := List.mem_filterMap.mp hnow
    obtain rfl := List.mem_singleton.mp hb
    cases b with
    | exchange c =>
      obtain rfl := Option.some.inj hvisible
      exact hcooperates
    | _ => cases hvisible

/-- A cooperative step does not kill the background thread. -/
theorem alive_step (hwakeful : Wakeful s)
    (halone : .timer ∈ s.events → s.bg = .dispatch ∧ s.events = [.timer] ∧ s.timer.Expired s.now)
    (halive : ∀ why, s.bg ≠ .dead why) (hstep : Cooperative lib s a t) (why : Death) : t.bg ≠ .dead why := by
  obtain ⟨hstep, hcooperates⟩ := hstep
  intro hdead
  cases hstep with
  | exchange hruns hsilent hstep => exact halive why hdead
  | signal hruns hstep hwrite => exact halive why hdead
  | signalFails hruns hstep hwrite => exact halive why hdead
  | elapse d => exact halive why hdead
  | interrupted hbg => exact halive why hdead
  | wake batch hbg hsome hmax hdistinct hready => cases hdead
  | batchDone hbg hevents => cases hdead
  | @timer rest hbg hevents =>
    have hexpired := (halone (hevents ▸ List.mem_cons_self)).2.2
    rw [timerCallback_expired rest hexpired] at hdead
    cases hdead
  | event hbg hevents =>
    rw [eventRead_eq hwakeful hevents] at hdead
    cases hdead
  | socket hbg hevents => cases hdead
  | multiTimer timeoutMs hinside =>
    rw [settime_multiTimer] at hdead
    exact halive why hdead
  | actionReturns hbg => cases hdead
  | @checkDone caller hbg hfocus hmsgs => cases caller <;> cases hdead
  | endEventCallback hbg =>
    rw [endEventCallback_eq] at hdead
    cases hdead
  | pendingEmpty hbg hfocus hpending => cases hdead
  | abort haborts => exact hcooperates

/-- A cooperative step leaves a reported timer by itself. -/
theorem alone_step (hwakeful : Wakeful s)
    (halone : .timer ∈ s.events → s.bg = .dispatch ∧ s.events = [.timer] ∧ s.timer.Expired s.now)
    (hstep : Cooperative lib s a t) (hm : .timer ∈ t.events) :
    t.bg = .dispatch ∧ t.events = [.timer] ∧ t.timer.Expired t.now := by
  obtain ⟨hstep, hcooperates⟩ := hstep
  -- elsewhere than between two events the batch has no timer
  have hnever {pos : Background} (hbg : s.bg = pos) (hpos : pos ≠ .dispatch)
      (hm : .timer ∈ s.events) : False :=
    hpos (hbg.symm.trans (halone hm).1)
  cases hstep with
  | exchange hruns hsilent hstep => exact halone hm
  | signal hruns hstep hwrite => exact halone hm
  | signalFails hruns hstep hwrite => exact halone hm
  | elapse d =>
    obtain ⟨hbg, hevents, hexpired⟩ := halone hm
    exact ⟨hbg, hevents, hexpired.mono (Nat.le_add_right _ _)⟩
  | interrupted hbg => exact halone hm
  | wake batch hbg hsome hmax hdistinct hready =>
    rcases hcooperates with rfl | ⟨hnot, -⟩
    · exact ⟨rfl, rfl, hready .timer hm⟩
    · exact absurd hm hnot
  | batchDone hbg hevents =>
    rw [show s.events = [] from hevents] at hm
    exact absurd hm List.not_mem_nil
  | @timer rest hbg hevents =>
    have hbefore := (halone (hevents ▸ List.mem_cons_self)).2
    have hrest : rest = [] := (List.cons.inj (hevents.symm.trans hbefore.1)).2
    rw [timerCallback_expired rest hbefore.2, hrest] at hm
    exact absurd hm List.not_mem_nil
  | @event rest hbg hevents =>
    rw [eventRead_eq hwakeful hevents] at hm
    have hsingle := (halone (hevents ▸ List.mem_cons_of_mem _ hm)).2.1
    cases hevents.symm.trans hsingle
  | @socket fd epollIn epollOut rest hbg hevents =>
    have hsingle := (halone (hevents ▸ List.mem_cons_of_mem _ hm)).2.1
    cases hevents.symm.trans hsingle
  | multiTimer timeoutMs hinside =>
    obtain ⟨timer, htimer⟩ := multiTimer_moves s timeoutMs
    rw [htimer] at hm
    have hbg := (halone hm).1
    rw [State.InLibcurl, hbg] at hinside
    exact absurd hinside id
  | actionReturns hbg => exact absurd hm (hnever hbg fun he => by cases he)
  | @checkDone caller hbg hfocus hmsgs => cases caller <;> exact absurd hm (hnever hbg fun he => by cases he)
  | endEventCallback hbg =>
    rw [endEventCallback_eq] at hm
    exact absurd hm (hnever hbg fun he => by cases he)
  | pendingEmpty hbg hfocus hpending => exact absurd hm (hnever hbg fun he => by cases he)
  | abort haborts => exact absurd hcooperates id

/-- Cooperation keeps a state sound. -/
theorem sound_step (hs : Sound lib easy s) (hstep : Cooperative lib s a t) : Sound lib easy t := by
  obtain ⟨history, hrun, hall⟩ := hs.reached
  have hwakeful := run_wakeful hrun
  exact ⟨⟨_, hrun.snoc hstep.1, hall.snoc hstep.2⟩, alive_step hwakeful hs.alone hs.alive hstep,
    alone_step hwakeful hs.alone hstep⟩

omit [HeaderMap] in
/-- The background thread's own steps are progress. -/
theorem progress_of_work {a : Action} (ha : a.work = 1) : a.progress = 1 := by
  cases a with
  | exchange b => cases b <;> first | rfl | cases ha
  | wake batch => rfl
  | _ => exact ha

/-- Somebody can make progress without an event of the network. -/
def Moves (lib : Library) (s : State) : Prop :=
  ∃ a t, a.progress = 1 ∧ consumes s a = 0 ∧ Cooperative lib s a t

/-- Away from `epoll_wait` the background thread or libcurl can go on. -/
theorem busy_moves (hinv : s.exchange.Inv) (hshape : Shape s) (hbg : s.bg ≠ .epollWait)
    (halive : ∀ why, s.bg ≠ .dead why) : Moves lib s := by
  by_cases hcall : Unfinished s
  · -- in a call for a socket libcurl may finish a transfer
    obtain ⟨hsocket, ⟨h, hrunning⟩, -⟩ := hcall
    have hruns : s.bg.Runs .libcurl := by
      cases hpos : s.bg with
      | socketAction caller => trivial
      | _ =>
        rw [hpos] at hsocket
        cases hsocket
    exact ⟨.exchange (.finish h 0), _, rfl, rfl, .exchange hruns rfl (.finish 0 hrunning), trivial⟩
  · obtain ⟨a, t, hwork, hsucceeds, hstep⟩ : ∃ a t, a.work = 1 ∧ a.Succeeds ∧ Step lib s a t :=
      background_moves hinv hshape hbg halive
    refine ⟨a, t, progress_of_work hwork, ?_, hstep, ?_⟩
    · cases a with
      | actionReturns => exact if_neg hcall
      | _ => rfl
    · cases a with
      | exchange b => cases b <;> exact hsucceeds
      | wake batch => cases hwork
      | abort why => exact absurd hsucceeds id
      | _ => trivial

/-- A client that has emplaced its request can write the event descriptor. -/
theorem signal_moves {h : CURL} {r : RequestId} (halive : ∀ why, s.bg ≠ .dead why)
    (henqueued : s.exchange.client h = .enqueued r) : Moves lib s := by
  have hruns : s.bg.Runs .client := by
    cases hpos : s.bg with
    | dead why => exact halive why hpos
    | _ => trivial
  cases hwrite : s.eventFd.write 1 with
  | some eventFd =>
    exact ⟨.exchange (.signal h true), _, rfl, rfl, .signal hruns (.signal true henqueued) hwrite, trivial⟩
  | none =>
    exact ⟨.exchange (.signal h false), _, rfl, rfl, .signalFails hruns (.signal false henqueued) hwrite,
      trivial⟩

/-- While somebody waits, somebody can make progress. -/
theorem sound_moves (hs : Sound lib easy s)
    (hwaiting : ∃ h r, s.exchange.client h = .enqueued r ∨ s.exchange.client h = .waiting r) : Moves lib s := by
  obtain ⟨history, hrun, hall⟩ := hs.reached
  have hinv := run_inv hrun
  by_cases hbg : s.bg = .epollWait
  · obtain ⟨-, hevents, hfocus, hmsgs⟩ := run_atRest hrun hbg
    by_cases henqueued : ∃ h r, s.exchange.client h = .enqueued r
    · obtain ⟨h, r, henqueued⟩ := henqueued
      exact signal_moves hs.alive henqueued
    obtain ⟨h, r, hclient⟩ := hwaiting
    have hclient := hclient.resolve_left fun he => henqueued ⟨h, r, he⟩
    obtain ⟨hlt, howner⟩ := hinv.custody.concern h r (by rw [hclient]; rfl)
    have hsent : s.exchange.Sent r := by
      refine ⟨hlt, fun he => ?_⟩
      rw [howner, hclient] at he
      cases he
    obtain ⟨place, hplace, -⟩ := hinv.located hsent
    -- where its request is says who can move
    cases place with
    | pending =>
      have hcounter : 0 < s.eventFd.counter := by
        rcases (run_wakeful hrun).announced (List.ne_nil_of_mem hplace) with he | hcounter | hdrain
        · exact absurd he henqueued
        · exact hcounter
        · cases hbg.symm.trans hdrain
      refine ⟨.wake [.event], _, rfl, rfl, .wake _ hbg (by decide) (by decide) (by decide) ?_,
        .inr ⟨by decide, ?_⟩⟩
      · intro entry hm
        obtain rfl := List.mem_singleton.mp hm
        exact hcounter
      · exact fun _ entry hm => List.mem_singleton.mp hm
    | held => cases hfocus.symm.trans hplace
    | ongoing =>
      have hentry := ((hinv.ongoing_iff r).mp hplace).1
      rw [howner] at hentry
      have hattached : h ∈ s.exchange.attached := by
        refine (run_handled hrun hall).attached (fun hnone => ?_) (fun _ he => ?_) fun he => ?_
        · cases hentry.symm.trans hnone
        · cases hfocus.symm.trans he
        · cases hfocus.symm.trans he
      have hrunning : h ∈ s.exchange.running := attached_running (run_accounted hrun) hfocus hmsgs hattached
      refine ⟨.wake [.socket 0 true true], _, rfl, rfl, .wake _ hbg (by decide) (by decide) (by decide) ?_,
        .inr ⟨by decide, fun hempty => ?_⟩⟩
      · intro entry hm
        obtain rfl := List.mem_singleton.mp hm
        trivial
      · rw [hempty] at hrunning
        exact absurd hrunning (Finset.notMem_empty h)
    | completed =>
      have hset : (s.exchange.request r).response.isSome = true := Option.isSome_iff_ne_none.mpr hplace
      have hruns : s.bg.Runs .client := hbg ▸ trivial
      exact ⟨.exchange (.receive h r), _, rfl, rfl, .exchange hruns rfl (.receive hclient hset), trivial⟩
  · exact busy_moves hinv (run_shape hrun) hbg hs.alive

/-- Nobody waits for a response. -/
def Served (s : State) : Prop :=
  ∀ h r, s.exchange.client h ≠ .enqueued r ∧ s.exchange.client h ≠ .waiting r

/-! ## The network -/

/-- Network events a step asks for, when each request takes so many. -/
def Action.asks (needs : RequestId → Nat) : Action → Nat
  | .exchange a => a.asks needs
  | _ => 0

/-- Network events that are to come for the transfer a step starts. -/
def Action.brings (needs : RequestId → Nat) : Action → Nat
  | .exchange a => a.brings needs
  | _ => 0

/-- The price of what a step asks for, with a wakeup for each network event. -/
def Action.cost (needs : RequestId → Nat) (a : Action) : Nat := a.price + wakeEffort * a.asks needs

/-- The event loop, and how many more calls for sockets may finish nothing. -/
structure Network where
  /-- The system. -/
  loop : State
  /-- Network events to come for the transfers libcurl has seen. -/
  supply : Nat

/-- The cooperative steps when the transfer of each request takes so many
network events that do not finish it: a call for a socket that finishes
nothing uses one of them up. -/
def Supplied (lib : Library) (needs : RequestId → Nat) (n : Network) (a : Action) (n' : Network) : Prop :=
  Cooperative lib n.loop a n'.loop ∧ n'.supply + consumes n.loop a = n.supply + a.brings needs

/-- What it takes until every client has its response, with the network's events. -/
def Network.effort (needs : RequestId → Nat) (n : Network) : Nat :=
  n.loop.effort + wakeEffort * (n.supply + n.loop.exchange.unseenNeeds needs)

/-- Only steps of the exchange move requests. -/
theorem unseenNeeds_step (needs : RequestId → Nat) (hstep : Step lib s a t) :
    t.exchange.unseenNeeds needs + a.brings needs ≤ s.exchange.unseenNeeds needs + a.asks needs := by
  cases hvisible : visible a with
  | some b =>
    obtain rfl := exchange_of_visible hvisible
    exact Exchange.unseenNeeds_step needs (step_shown hstep hvisible)
  | none =>
    rw [step_hidden hstep hvisible]
    cases a with
    | exchange b => cases hvisible
    | _ => exact Nat.le_refl _

/-- Progress is paid from the effort and from what is asked for. -/
theorem network_step {needs : RequestId → Nat} {n n' : Network} (hs : Sound lib easy n.loop)
    (hstep : Supplied lib needs n a n') : n'.effort needs + a.progress ≤ n.effort needs + a.cost needs := by
  obtain ⟨hstep, hsupply⟩ := hstep
  obtain ⟨history, hrun, -⟩ := hs.reached
  have hloop := effort_step (run_inv hrun) (run_shape hrun) (run_wakeful hrun) hstep
  have hunseen := unseenNeeds_step needs hstep.1
  simp only [Network.effort, Action.cost, wakeEffort, maxEvents] at hloop ⊢
  omega

/-- A cooperative step with its account of the network's events continues a run. -/
theorem supplied_snoc {needs : RequestId → Nat} {start n : Network} {history : List (Move Network Action)}
    (hrun : Run (Supplied lib needs) start history n) (supply : Nat) (hstep : Step lib n.loop a t)
    (hcooperates : Cooperates n.loop a) (hsupply : supply + consumes n.loop a = n.supply + a.brings needs) :
    Run (Supplied lib needs) start (history ++ [⟨n, a, ⟨t, supply⟩⟩]) ⟨t, supply⟩ :=
  hrun.snoc ⟨⟨hstep, hcooperates⟩, hsupply⟩

end

end EventLoop

end CurlHttpfs.Manager
