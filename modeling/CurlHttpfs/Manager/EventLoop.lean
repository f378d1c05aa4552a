import Mathlib.Data.Finset.Card
import CurlHttpfs.Lib.Descriptors
import CurlHttpfs.Manager.Exchange

/-!
# The event loop of `MultiCurlManager`

The background thread waits in `epoll_wait`, takes a batch of ready
descriptors and handles them one after another. Readiness is sampled once for
the whole batch. Clients run concurrently; libcurl runs inside the calls the
background thread makes and calls `MultiTimerCallback` from there. This is
the Linux loop.
-/

namespace CurlHttpfs.Manager

open Http Curl Kernel

/-- One entry of the array `epoll_wait` fills. -/
inductive EpollEvent where
  /-- The timer descriptor. -/
  | timer
  /-- The event descriptor. -/
  | event
  /-- A socket of libcurl with its `EPOLLIN` and `EPOLLOUT` bits. -/
  | socket (fd : Nat) (epollIn epollOut : Bool)
  deriving DecidableEq

/-- Descriptors in the interest list. -/
inductive Descriptor where
  | timerFd
  | eventFd
  | socket (fd : Nat)
  deriving DecidableEq

/-- `data.fd` of an entry. -/
def EpollEvent.fd : EpollEvent → Descriptor
  | .timer => .timerFd
  | .event => .eventFd
  | .socket fd _ _ => .socket fd

/-- Length of the array `events` in `HandleEvent`. -/
def maxEvents : Nat := 32

/-- The function that called `curl_multi_socket_action`. -/
inductive Caller where
  /-- `TimerCallback`, with `CURL_SOCKET_TIMEOUT`. -/
  | timerCallback
  /-- `EventCallback`, with a socket and its action bits. -/
  | eventCallback (fd : Nat) (action : Nat)
  deriving DecidableEq

/-- The action bits `EventCallback` passes, `CURL_CSELECT_IN` and `CURL_CSELECT_OUT`. -/
def selectAction (epollIn epollOut : Bool) : Nat :=
  (if epollIn = true then 1 else 0) ||| (if epollOut = true then 2 else 0)

/-- Ways in which the background thread dies. -/
inductive Death where
  /-- The assertion behind the read of `timer_fd`. -/
  | timerRead
  /-- The assertion behind the read of `event_fd`. -/
  | eventRead
  /-- The assertion that `ongoing_requests` has no entry of the handle yet. -/
  | entryExists
  /-- The assertion that `ongoing_requests` has an entry of the handle. -/
  | entryMissing
  /-- `set_value` on a promise that is set already. -/
  | promiseSet
  /-- A message whose handle has no private data. -/
  | privateNull
  /-- An exception out of a callback. -/
  | callback (fault : Fault)
  /-- `timerfd_settime` failed. -/
  | settime
  deriving DecidableEq

/-- Where the background thread stands. -/
inductive Background where
  /-- In `epoll_wait`. -/
  | epollWait
  /-- Between two events of a batch. -/
  | dispatch
  /-- In `curl_multi_socket_action`. -/
  | socketAction (caller : Caller)
  /-- In the loop of `CheckMulti`. -/
  | checkMulti (caller : Caller)
  /-- In `EventCallback`, behind `CheckMulti`. -/
  | afterCheck
  /-- In the loop of `ProcessPendingRequests`. -/
  | drain
  /-- Dead, and the process with it. -/
  | dead (why : Death)
  deriving DecidableEq

/-- What `MultiTimerCallback` writes for a timeout in milliseconds: at least
one nanosecond when it is not negative, and nothing when it is. -/
def multiTimerSpec (timeoutMs : Int) : ITimerSpec :=
  if 0 < timeoutMs then ⟨timeoutMs.toNat / 1000, timeoutMs.toNat % 1000 * 1000 * 1000⟩
  else if timeoutMs = 0 then ⟨0, 1⟩
  else ⟨0, 0⟩

/-- The time `MultiTimerCallback` waits for. -/
theorem multiTimerSpec_nanos (timeoutMs : Int) :
    (multiTimerSpec timeoutMs).tvNsec < 1000000000 ∧
      (multiTimerSpec timeoutMs).nanos =
        if timeoutMs < 0 then 0 else max (timeoutMs.toNat * 1000000) 1 := by
  unfold multiTimerSpec ITimerSpec.nanos
  by_cases hpos : 0 < timeoutMs
  · rw [if_pos hpos]
    simp only
    have hneg : ¬timeoutMs < 0 := by omega
    rw [if_neg hneg]
    omega
  · rw [if_neg hpos]
    by_cases hzero : timeoutMs = 0
    · subst hzero
      decide
    · have hneg : timeoutMs < 0 := by omega
      rw [if_neg hzero, if_pos hneg]
      decide

variable [HeaderMap]

/-- The whole system. -/
structure State where
  /-- What clients, libcurl and background thread share. -/
  exchange : Exchange
  /-- The clock, in nanoseconds. -/
  now : Nat
  /-- `timer_fd`. -/
  timer : TimerFd
  /-- `event_fd`. -/
  eventFd : EventFd
  /-- `still_running`. -/
  stillRunning : Nat
  /-- Entries of the batch not handled yet. -/
  events : List EpollEvent
  /-- The background thread. -/
  bg : Background

/-- The state the constructor leaves: the timer is set to one second. -/
def State.init (easy : CURL → Easy) : State where
  exchange := .init easy
  now := 0
  timer := ⟨some 1000000000⟩
  eventFd := .zero
  stillRunning := 0
  events := []
  bg := .epollWait

/-! ## Who moves -/

/-- The party that takes a step of the exchange. -/
inductive Actor where
  | client
  | libcurl
  | checkMulti
  | processPendingRequests

/-- The party of each step. -/
def Exchange.Action.actor : Exchange.Action → Actor
  | .build _ | .setUrl _ _ | .configure _ | .enqueue _ _ | .signal _ _ | .receive _ _ => .client
  | .callback _ _ | .finish _ _ | .notice => .libcurl
  | .infoSkip | .infoRead _ _ | .setValue _ | .removeHandle _ | .erase _ => .checkMulti
  | .pop _ | .insert _ _ | .addHandle _ _ _ => .processPendingRequests

/-- The parties that may move while the background thread stands somewhere.
Clients move as long as the process lives. -/
def Background.Runs : Background → Actor → Prop
  | .dead _, _ => False
  | _, .client => True
  | .socketAction _, .libcurl => True
  | .checkMulti _, .checkMulti => True
  | .drain, .processPendingRequests => True
  | _, _ => False

/-- Whether a step writes the event descriptor. -/
def Exchange.Action.isSignal : Exchange.Action → Bool
  | .signal _ _ => true
  | _ => false

/-- The background thread is inside a call of libcurl that may set the timer. -/
def State.InLibcurl (s : State) : Prop :=
  match s.bg with
  | .socketAction _ => True
  | .checkMulti _ => ∃ h, s.exchange.focus = .removing h
  | .drain => ∃ h r, s.exchange.focus = .adding h r
  | _ => False

/-- Readiness of a descriptor. Any socket may be ready at any time. -/
def State.Ready (s : State) : EpollEvent → Prop
  | .timer => s.timer.Expired s.now
  | .event => 0 < s.eventFd.counter
  | .socket _ _ _ => True

instance (s : State) (entry : EpollEvent) : Decidable (s.Ready entry) :=
  match entry with
  | .timer => inferInstanceAs (Decidable (s.timer.Expired s.now))
  | .event => inferInstanceAs (Decidable (0 < s.eventFd.counter))
  | .socket _ _ _ => inferInstanceAs (Decidable True)

/-- The cause of a death in the hands of the background thread. -/
def State.Aborts (s : State) : Death → Prop
  | .entryExists => s.bg = .drain ∧ ∃ r, s.exchange.focus = .held r ∧
      s.exchange.ongoingRequests (s.exchange.request r).easyCurl ≠ none
  | .entryMissing => (∃ caller, s.bg = .checkMulti caller) ∧
      ∃ h, s.exchange.focus = .erasing h ∧ s.exchange.ongoingRequests h = none
  | .promiseSet => (∃ caller, s.bg = .checkMulti caller) ∧
      ∃ h r res, s.exchange.focus = .fulfilling h r res ∧ (s.exchange.request r).response ≠ none
  | .privateNull => (∃ caller, s.bg = .checkMulti caller) ∧ s.exchange.focus = .idle ∧
      ∃ h res rest, s.exchange.msgs = .done h res :: rest ∧ (s.exchange.easy h).privateData = none
  | .callback fault => (∃ caller, s.bg = .socketAction caller) ∧
      ∃ h ev, h ∈ s.exchange.running ∧
        match callbackTarget (s.exchange.easy h) ev with
        | none => fault = .badPointer
        | some r => receiveRequest (s.exchange.request r).info ev = .error fault
  | .timerRead | .eventRead | .settime => False

/-! ## Effects -/

/-- `TimerCallback` up to the call of libcurl. -/
def State.timerCallback (s : State) (rest : List EpollEvent) : State :=
  match s.timer.read s.now with
  | some (_, timer) => { s with timer := timer, events := rest, bg := .socketAction .timerCallback }
  | none => { s with bg := .dead .timerRead }

/-- The branch of `HandleEvent` for the event descriptor, up to `ProcessPendingRequests`. -/
def State.eventRead (s : State) (rest : List EpollEvent) : State :=
  match s.eventFd.read with
  | some (_, eventFd) => { s with eventFd := eventFd, events := rest, bg := .drain }
  | none => { s with bg := .dead .eventRead }

/-- `EventCallback` up to the call of libcurl. -/
def State.eventCallback (s : State) (fd : Nat) (epollIn epollOut : Bool) (rest : List EpollEvent) : State :=
  { s with events := rest, bg := .socketAction (.eventCallback fd (selectAction epollIn epollOut)) }

/-- A write of `timer_fd`. -/
def State.settime (s : State) (its : ITimerSpec) : State :=
  match TimerFd.settime s.now its with
  | some timer => { s with timer := timer }
  | none => { s with bg := .dead .settime }

/-- `curl_multi_socket_action` returns and stores the running count. -/
def State.actionReturns (s : State) (caller : Caller) : State :=
  { s with stillRunning := s.exchange.running.card, bg := .checkMulti caller }

/-- `CheckMulti` returns to its caller. -/
def State.checkDone (s : State) : Caller → State
  | .timerCallback => { s with bg := .dispatch }
  | .eventCallback _ _ => { s with bg := .afterCheck }

/-- The end of `EventCallback`: the timer is disarmed when nothing runs. -/
def State.endEventCallback (s : State) : State :=
  if s.stillRunning = 0 then { s with bg := .dispatch }.settime ⟨0, 0⟩ else { s with bg := .dispatch }

/-! ## Steps -/

namespace EventLoop

/-- The label of a step. -/
inductive Action where
  /-- A step of the exchange. -/
  | exchange (a : Exchange.Action)
  /-- Time passes, in nanoseconds. -/
  | elapse (d : Nat)
  /-- `epoll_wait` fails with `EINTR`. -/
  | interrupted
  /-- `epoll_wait` returns a batch. -/
  | wake (batch : List EpollEvent)
  /-- The batch is finished. -/
  | batchDone
  /-- The next event of the batch is handled. -/
  | dispatch (entry : EpollEvent)
  /-- libcurl calls `MultiTimerCallback`. -/
  | multiTimer (timeoutMs : Int)
  /-- `curl_multi_socket_action` returns. -/
  | actionReturns
  /-- `CheckMulti` finds no message. -/
  | checkDone
  /-- `EventCallback` ends, disarming the timer when nothing runs. -/
  | endEventCallback (disarms : Bool)
  /-- `ProcessPendingRequests` finds the queue empty. -/
  | pendingEmpty
  /-- The background thread dies. -/
  | abort (why : Death)

/-- The steps of the system. -/
inductive Step (lib : Library) : State → Action → State → Prop
  | exchange {s : State} {a : Exchange.Action} {e : Exchange} (hruns : s.bg.Runs a.actor)
      (hsilent : a.isSignal = false) (hstep : Exchange.Step lib s.exchange a e) :
      Step lib s (.exchange a) { s with exchange := e }
  | signal {s : State} {h : CURL} {e : Exchange} {eventFd : EventFd} (hruns : s.bg.Runs .client)
      (hstep : Exchange.Step lib s.exchange (.signal h true) e) (hwrite : s.eventFd.write 1 = some eventFd) :
      Step lib s (.exchange (.signal h true)) { s with exchange := e, eventFd := eventFd }
  | signalFails {s : State} {h : CURL} {e : Exchange} (hruns : s.bg.Runs .client)
      (hstep : Exchange.Step lib s.exchange (.signal h false) e) (hwrite : s.eventFd.write 1 = none) :
      Step lib s (.exchange (.signal h false)) { s with exchange := e }
  | elapse {s : State} (d : Nat) : Step lib s (.elapse d) { s with now := s.now + d }
  | interrupted {s : State} (hbg : s.bg = .epollWait) : Step lib s .interrupted s
  | wake {s : State} (batch : List EpollEvent) (hbg : s.bg = .epollWait) (hsome : batch ≠ [])
      (hmax : batch.length ≤ maxEvents) (hdistinct : (batch.map EpollEvent.fd).Nodup)
      (hready : ∀ entry ∈ batch, s.Ready entry) :
      Step lib s (.wake batch) { s with events := batch, bg := .dispatch }
  | batchDone {s : State} (hbg : s.bg = .dispatch) (hevents : s.events = []) :
      Step lib s .batchDone { s with bg := .epollWait }
  | timer {s : State} {rest : List EpollEvent} (hbg : s.bg = .dispatch) (hevents : s.events = .timer :: rest) :
      Step lib s (.dispatch .timer) (s.timerCallback rest)
  | event {s : State} {rest : List EpollEvent} (hbg : s.bg = .dispatch) (hevents : s.events = .event :: rest) :
      Step lib s (.dispatch .event) (s.eventRead rest)
  | socket {s : State} {fd : Nat} {epollIn epollOut : Bool} {rest : List EpollEvent} (hbg : s.bg = .dispatch)
      (hevents : s.events = .socket fd epollIn epollOut :: rest) :
      Step lib s (.dispatch (.socket fd epollIn epollOut)) (s.eventCallback fd epollIn epollOut rest)
  | multiTimer {s : State} (timeoutMs : Int) (hinside : s.InLibcurl) :
      Step lib s (.multiTimer timeoutMs) (s.settime (multiTimerSpec timeoutMs))
  | actionReturns {s : State} {caller : Caller} (hbg : s.bg = .socketAction caller) :
      Step lib s .actionReturns (s.actionReturns caller)
  | checkDone {s : State} {caller : Caller} (hbg : s.bg = .checkMulti caller)
      (hfocus : s.exchange.focus = .idle) (hmsgs : s.exchange.msgs = []) :
      Step lib s .checkDone (s.checkDone caller)
  | endEventCallback {s : State} (hbg : s.bg = .afterCheck) :
      Step lib s (.endEventCallback (s.stillRunning = 0)) s.endEventCallback
  | pendingEmpty {s : State} (hbg : s.bg = .drain) (hfocus : s.exchange.focus = .idle)
      (hpending : s.exchange.pendingRequests = []) : Step lib s .pendingEmpty { s with bg := .dispatch }
  | abort {s : State} {why : Death} (haborts : s.Aborts why) :
      Step lib s (.abort why) { s with bg := .dead why }

/-- The step of the exchange a label stands for. -/
def visible : Action → Option Exchange.Action
  | .exchange a => some a
  | _ => none

end EventLoop

end CurlHttpfs.Manager
