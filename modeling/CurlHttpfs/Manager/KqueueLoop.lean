import CurlHttpfs.Lib.Knotes
import CurlHttpfs.Manager.Transparency

/-!
# The event loop on a kernel queue

The macOS build runs the same exchange from another loop. `kevent` hands out
a batch of events and clears the timer and the user event as it does so;
nothing is read afterwards, no assertion follows, and no callback disarms the
timer. A run of this loop is a run of the exchange again, so it serves its
clients the same way, and only the header decoder can kill its thread.
-/

namespace CurlHttpfs.Manager.Apple

open Http Curl Kernel Transition

/-- One entry of the array `kevent` fills, by its filter. -/
inductive Kevent where
  /-- `EVFILT_TIMER`. -/
  | timer
  /-- `EVFILT_USER` under `event_ident`. -/
  | user
  /-- `EVFILT_READ` of a socket. -/
  | read (fd : Nat)
  /-- `EVFILT_WRITE` of a socket. -/
  | write (fd : Nat)
  deriving DecidableEq

/-- Where the background thread stands. -/
inductive Background where
  /-- In `kevent`. -/
  | kevent
  /-- Between two events of a batch. -/
  | dispatch
  /-- In `curl_multi_socket_action`. -/
  | socketAction (caller : Caller)
  /-- In the loop of `CheckMulti`. -/
  | checkMulti (caller : Caller)
  /-- In the loop of `ProcessPendingRequests`. -/
  | drain
  /-- Dead, and the process with it. -/
  | dead (why : Death)
  deriving DecidableEq

/-- The same place in the Linux loop, with which this one shares what it calls. -/
def Background.shared : Background → Manager.Background
  | .kevent => .epollWait
  | .dispatch => .dispatch
  | .socketAction caller => .socketAction caller
  | .checkMulti caller => .checkMulti caller
  | .drain => .drain
  | .dead why => .dead why

/-- What `MultiTimerCallback` does to the timer: the period of the one it
adds, or nothing when it deletes. -/
def multiTimerChange (timeoutMs : Int) : Option { p : Nat // 0 < p } :=
  if h : 0 < timeoutMs then some ⟨timeoutMs.toNat, by omega⟩
  else if timeoutMs = 0 then some ⟨1, Nat.one_pos⟩
  else none

section

variable [HeaderMap]

/-- The whole system. -/
structure State where
  /-- What clients, libcurl and background thread share. -/
  exchange : Exchange
  /-- The clock, in milliseconds. -/
  now : Nat
  /-- The timer of the kernel queue. -/
  timer : Option KTimer
  /-- The user event has been triggered and not retrieved. -/
  user : Bool
  /-- `still_running`. -/
  stillRunning : Nat
  /-- Entries of the batch not handled yet. -/
  events : List Kevent
  /-- The background thread. -/
  bg : Background

/-- The state the constructor leaves: no timer, and a user event nobody has triggered. -/
def State.init (easy : CURL → Easy) : State where
  exchange := .init easy
  now := 0
  timer := none
  user := false
  stillRunning := 0
  events := []
  bg := .kevent

/-- The part of the state the Linux loop has as well. -/
def State.shared (s : State) : Manager.State where
  exchange := s.exchange
  now := s.now
  timer := ⟨none⟩
  eventFd := .zero
  stillRunning := s.stillRunning
  events := []
  bg := s.bg.shared

/-- Readiness of an event. Any socket may be ready at any time. -/
def State.Ready (s : State) : Kevent → Prop
  | .timer => ∃ timer ∈ s.timer, timer.Fired s.now
  | .user => s.user = true
  | .read _ | .write _ => True

instance (s : State) (entry : Kevent) : Decidable (s.Ready entry) :=
  match entry with
  | .timer => inferInstanceAs (Decidable (∃ timer ∈ s.timer, timer.Fired s.now))
  | .user => inferInstanceAs (Decidable (s.user = true))
  | .read _ => inferInstanceAs (Decidable True)
  | .write _ => inferInstanceAs (Decidable True)

/-! ## Effects -/

/-- `kevent` returns a batch and clears the timer and the user event in it. -/
def State.retrieve (s : State) (batch : List Kevent) : State :=
  { s with
    timer := if .timer ∈ batch then s.timer.map (KTimer.retrieve s.now) else s.timer
    user := if .user ∈ batch then false else s.user
    events := batch
    bg := .dispatch }

/-- The branch of `HandleEvent` for an event, up to libcurl or `ProcessPendingRequests`. -/
def State.handle (s : State) (entry : Kevent) (rest : List Kevent) : State :=
  { s with
    events := rest
    bg := match entry with
      | .timer => .socketAction .timerCallback
      | .user => .drain
      | .read fd => .socketAction (.eventCallback fd (selectAction true false))
      | .write fd => .socketAction (.eventCallback fd (selectAction false true)) }

/-- `MultiTimerCallback`. -/
def State.multiTimer (s : State) (timeoutMs : Int) : State :=
  { s with timer := (multiTimerChange timeoutMs).map (KTimer.add s.now) }

/-- `curl_multi_socket_action` returns and stores the running count. -/
def State.actionReturns (s : State) (caller : Caller) : State :=
  { s with stillRunning := s.exchange.running.card, bg := .checkMulti caller }

/-! ## Steps -/

/-- The label of a step. -/
inductive Action where
  /-- A step of the exchange. -/
  | exchange (a : Exchange.Action)
  /-- Time passes, in milliseconds. -/
  | elapse (d : Nat)
  /-- `kevent` fails with `EINTR`. -/
  | interrupted
  /-- `kevent` returns a batch. -/
  | wake (batch : List Kevent)
  /-- The batch is finished. -/
  | batchDone
  /-- The next event of the batch is handled. -/
  | dispatch (entry : Kevent)
  /-- libcurl calls `MultiTimerCallback`. -/
  | multiTimer (timeoutMs : Int)
  /-- `curl_multi_socket_action` returns. -/
  | actionReturns
  /-- `CheckMulti` finds no message. -/
  | checkDone
  /-- `ProcessPendingRequests` finds the queue empty. -/
  | pendingEmpty
  /-- The background thread dies. -/
  | abort (why : Death)

/-- The steps of the system. -/
inductive Step (lib : Library) : State → Action → State → Prop
  | exchange {s : State} {a : Exchange.Action} {e : Exchange} (hruns : s.bg.shared.Runs a.actor)
      (hsilent : a.isSignal = false) (hstep : Exchange.Step lib s.exchange a e) :
      Step lib s (.exchange a) { s with exchange := e }
  | signal {s : State} {h : CURL} {e : Exchange} (hruns : s.bg.shared.Runs .client)
      (hstep : Exchange.Step lib s.exchange (.signal h true) e) :
      Step lib s (.exchange (.signal h true)) { s with exchange := e, user := true }
  | elapse {s : State} (d : Nat) : Step lib s (.elapse d) { s with now := s.now + d }
  | interrupted {s : State} (hbg : s.bg = .kevent) : Step lib s .interrupted s
  | wake {s : State} (batch : List Kevent) (hbg : s.bg = .kevent) (hsome : batch ≠ [])
      (hmax : batch.length ≤ maxEvents) (hdistinct : batch.Nodup)
      (hready : ∀ entry ∈ batch, s.Ready entry) : Step lib s (.wake batch) (s.retrieve batch)
  | batchDone {s : State} (hbg : s.bg = .dispatch) (hevents : s.events = []) :
      Step lib s .batchDone { s with bg := .kevent }
  | dispatch {s : State} {entry : Kevent} {rest : List Kevent} (hbg : s.bg = .dispatch)
      (hevents : s.events = entry :: rest) : Step lib s (.dispatch entry) (s.handle entry rest)
  | multiTimer {s : State} (timeoutMs : Int) (hinside : s.shared.InLibcurl) :
      Step lib s (.multiTimer timeoutMs) (s.multiTimer timeoutMs)
  | actionReturns {s : State} {caller : Caller} (hbg : s.bg = .socketAction caller) :
      Step lib s .actionReturns (s.actionReturns caller)
  | checkDone {s : State} {caller : Caller} (hbg : s.bg = .checkMulti caller)
      (hfocus : s.exchange.focus = .idle) (hmsgs : s.exchange.msgs = []) :
      Step lib s .checkDone { s with bg := .dispatch }
  | pendingEmpty {s : State} (hbg : s.bg = .drain) (hfocus : s.exchange.focus = .idle)
      (hpending : s.exchange.pendingRequests = []) : Step lib s .pendingEmpty { s with bg := .dispatch }
  | abort {s : State} {why : Death} (haborts : s.shared.Aborts why) :
      Step lib s (.abort why) { s with bg := .dead why }

/-! ## Projection to the exchange -/

omit [HeaderMap] in
/-- The step of the exchange a label stands for. -/
def visible : Action → Option Exchange.Action
  | .exchange a => some a
  | _ => none

/-- The steps of the exchange in a history. -/
def exchangeLabels (history : List (Move State Action)) : List Exchange.Action :=
  (labels history).filterMap visible

/-- A step with another label leaves the exchange alone. -/
theorem step_hidden {lib : Library} {s t : State} {a : Action} (hstep : Step lib s a t)
    (ha : visible a = none) : t.exchange = s.exchange := by
  cases hstep with
  | exchange hruns hsilent hstep => cases ha
  | signal hruns hstep => cases ha
  | _ => rfl

/-- A step labelled with a step of the exchange is that step. -/
theorem step_shown {lib : Library} {s t : State} {a : Action} {b : Exchange.Action} (hstep : Step lib s a t)
    (ha : visible a = some b) : Exchange.Step lib s.exchange b t.exchange := by
  cases hstep with
  | exchange hruns hsilent hstep =>
    obtain rfl := Option.some.inj ha
    exact hstep
  | signal hruns hstep =>
    obtain rfl := Option.some.inj ha
    exact hstep
  | _ => cases ha

variable {lib : Library} {easy : CURL → Easy} {history : List (Move State Action)} {s t : State} {a : Action}

/-- A run of this loop is a run of the exchange. -/
theorem run_exchange (hrun : Run (Step lib) (State.init easy) history s) :
    ∃ exchangeHistory, Run (Exchange.Step lib) (Exchange.init easy) exchangeHistory s.exchange ∧
      labels exchangeHistory = exchangeLabels history :=
  hrun.project State.exchange visible (fun _ _ _ hstep ha => step_hidden hstep ha)
    fun _ _ _ _ hstep ha => step_shown hstep ha

/-- The invariant of the exchange holds in every reachable state. -/
theorem run_inv (hrun : Run (Step lib) (State.init easy) history s) : s.exchange.Inv := by
  obtain ⟨exchangeHistory, hexchange, -⟩ := run_exchange hrun
  exact Exchange.run_inv hexchange

/-! ## Deaths -/

/-- Only a failed assertion or an exception kills the thread. -/
theorem step_dead (hstep : Step lib s a t) {why : Death} (hdead : t.bg = .dead why) :
    s.bg = .dead why ∨ s.shared.Aborts why := by
  cases hstep with
  | exchange hruns hsilent hstep => exact .inl hdead
  | signal hruns hstep => exact .inl hdead
  | elapse d => exact .inl hdead
  | interrupted hbg => exact .inl hdead
  | @dispatch entry rest hbg hevents => cases entry <;> cases hdead
  | multiTimer timeoutMs hinside => exact .inl hdead
  | abort haborts =>
    obtain rfl := Background.dead.inj hdead
    exact .inr haborts
  | _ => cases hdead

/-- The header decoder's exceptions are the only cause of death. -/
theorem run_dead (hrun : Run (Step lib) (State.init easy) history s) {why : Death} (hdead : s.bg = .dead why) :
    why = .callback .outOfRange ∨ why = .callback .emptyBack := by
  refine hrun.induct (I := fun _ s => s.bg = .dead why → why = .callback .outOfRange ∨ why = .callback .emptyBack)
    (fun hdead => by cases hdead) ?_ hdead
  intro history s a t hpast hI hstep hdead
  rcases step_dead hstep hdead with hbefore | haborts
  · exact hI hbefore
  · have hnot (hwhy : EventLoop.Handover why) : False :=
      EventLoop.not_aborts (s := s.shared) (run_inv hpast) hwhy haborts
    cases why with
    | callback fault =>
      cases fault with
      | outOfRange => exact .inl rfl
      | emptyBack => exact .inr rfl
      | useAfterFree => exact (hnot trivial).elim
      | badPointer => exact (hnot trivial).elim
    | timerRead => exact haborts.elim
    | eventRead => exact haborts.elim
    | _ => exact (hnot trivial).elim

/-- The steps of a client that sends a request. -/
def sendMoves (s : State) (h : CURL) : List (Move State Action) :=
  let built := { s with exchange := s.exchange.build h }
  let queued := { s with exchange := (s.exchange.build h).enqueue h s.exchange.nextRequest }
  [⟨s, .exchange (.build h), built⟩, ⟨built, .exchange (.enqueue h s.exchange.nextRequest), queued⟩,
    ⟨queued, .exchange (.signal h true), { s with exchange := s.exchange.sends h, user := true }⟩]

/-- A client between two calls can send a request. -/
theorem send_run {h : CURL} (hruns : s.bg.shared.Runs .client) (hidle : s.exchange.client h = .idle) :
    Run (Step lib) s (sendMoves s h) { s with exchange := s.exchange.sends h, user := true } := by
  have built : Run (Step lib) s _ _ := Run.nil.snoc (.exchange (a := .build h) hruns rfl (.build hidle))
  have queued := built.snoc (.exchange (a := .enqueue h s.exchange.nextRequest) hruns rfl
    (.enqueue (Function.update_self _ _ _)))
  exact queued.snoc (.signal hruns (.signal true (Function.update_self _ _ _)))

end

end CurlHttpfs.Manager.Apple

/-! ## What every loop guarantees -/

namespace CurlHttpfs.Manager

open Http Curl Transition

section

variable [HeaderMap]

/-- What the exchange guarantees about the requests sent so far, whichever
loop drives it. -/
structure Exchange.Serves (lib : Library) (actions : List Exchange.Action) (s : Exchange) : Prop where
  /-- Every sent request is in one place. -/
  located : ∀ h r, .enqueue h r ∈ actions → ∃! place, s.Located r place
  /-- The map holds it once. -/
  stored : ∀ h h' r, s.ongoingRequests h = some r → s.ongoingRequests h' = some r → h = h'
  /-- Its promise has been set once if it is set, and otherwise never. -/
  once : ∀ r, actions.countP (Exchange.Action.setsValue r) = if s.Open r then 0 else 1
  /-- Each client's request is what its own dialogue says, and so is the answer. -/
  told : ∀ h, Exchange.Told lib (dialogue h actions) s h
  /-- Requests are handed to libcurl in the order in which they were sent. -/
  ordered : Exchange.sendOrder actions =
    Exchange.addOrder actions ++ s.focus.inHand ++ s.pendingRequests

/-- Every run of the exchange serves its clients. -/
theorem Exchange.serves_of_run {lib : Library} {easy : CURL → Easy} {history : List (Move Exchange Exchange.Action)}
    {s : Exchange} (hrun : Run (Exchange.Step lib) (Exchange.init easy) history s) :
    s.Serves lib (labels history) := by
  have hs := Exchange.run_inv hrun
  constructor
  case located => exact fun h r hm => hs.located (Exchange.run_sent hrun hm)
  case stored =>
    intro h h' r he he'
    exact (hs.custody.keyed h r he).2.symm.trans (hs.custody.keyed h' r he').2
  case once => exact Exchange.run_setValue_count hrun
  case told => exact Exchange.run_told hrun
  case ordered => exact Exchange.run_order hrun

end

end CurlHttpfs.Manager
