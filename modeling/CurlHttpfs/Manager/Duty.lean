import CurlHttpfs.Lib.Potential
import CurlHttpfs.Manager.Timeout
import CurlHttpfs.Manager.Wakeup

/-!
# What the background thread has to do

Everything the background thread has before it is visible in the state: the
entries of its batch, the message or request in hand, the unread messages and
the pending requests. Each of its steps does one piece of it, and none of its
loops can get stuck, so it comes back to `epoll_wait` after as many steps as
there are pieces, and over a whole run it works no more than events, requests
and finished transfers give it to do.
-/

namespace CurlHttpfs.Manager

open Http Curl Kernel Transition

/-- The locals belong to `ProcessPendingRequests`. -/
def Focus.collects : Focus → Bool
  | .held _ | .adding _ _ => true
  | .idle | .fulfilling _ _ _ | .removing _ | .erasing _ => false

/-- The locals belong to `CheckMulti`. -/
def Focus.answers : Focus → Bool
  | .fulfilling _ _ _ | .removing _ | .erasing _ => true
  | .idle | .held _ | .adding _ _ => false

namespace Exchange

section

variable [HeaderMap] {lib : Library} {s t : Exchange} {a : Action}

/-- Each loop leaves its own kind of locals. -/
theorem focus_side (hstep : Step lib s a t) :
    (a.actor = .checkMulti → t.focus.collects = false) ∧
      (a.actor = .processPendingRequests → t.focus.answers = false) := by
  refine ⟨fun ha => ?_, fun ha => ?_⟩
  · cases hstep with
    | infoSkip hfocus hmsgs =>
      dsimp only
      rw [hfocus]
      rfl
    | infoRead code hfocus hmsgs hprivate => rfl
    | setValue hfocus hunset => rfl
    | removeHandle hfocus => rfl
    | erase hfocus hfound => rfl
    | _ => cases ha
  · cases hstep with
    | pop hfocus hpending => rfl
    | insert hfocus hhandle habsent => rfl
    | attach hfocus hdetached => rfl
    | attachFailed hfocus hcode => rfl
    | _ => cases ha

/-- Only libcurl queues messages, and only `CheckMulti` takes them. -/
theorem msgs_kept (hstep : Step lib s a t) (ha : a.actor = .client ∨ a.actor = .processPendingRequests) :
    t.msgs = s.msgs := by
  cases hstep with
  | finish res hrunning => rcases ha with ha | ha <;> cases ha
  | notice => rcases ha with ha | ha <;> cases ha
  | infoSkip hfocus hmsgs => rcases ha with ha | ha <;> cases ha
  | infoRead code hfocus hmsgs hprivate => rcases ha with ha | ha <;> cases ha
  | removeHandle hfocus => rcases ha with ha | ha <;> cases ha
  | _ => rfl

/-- The steps the locals still call for. -/
def focusDuty : Focus → Nat
  | .idle => 0
  | .held _ => 2
  | .adding _ _ => 1
  | .fulfilling _ _ _ => 3
  | .removing _ => 2
  | .erasing _ => 1

/-- What messages and requests give the background thread to do: four steps
for a message, three for a request. -/
def duty (s : Exchange) : Nat :=
  focusDuty s.focus + 4 * s.msgs.length + 3 * s.pendingRequests.length

/-- The steps the background thread takes on the exchange. -/
def Action.work (a : Action) : Nat :=
  match a.actor with
  | .checkMulti | .processPendingRequests => 1
  | .client | .libcurl => 0

/-- What a step gives the background thread to do. -/
def Action.load : Action → Nat
  | .enqueue _ _ => 3
  | .finish _ _ | .notice => 4
  | _ => 0

/-- The work of a step is done from the duties or comes in with the step. -/
theorem duty_step (hstep : Step lib s a t) : t.duty + a.work ≤ s.duty + a.load := by
  cases hstep with
  | enqueue hbuilt =>
    simp only [duty, Exchange.enqueue, Action.work, Action.actor, Action.load, List.length_append,
      List.length_singleton]
    omega
  | finish res hrunning =>
    simp only [duty, Exchange.finish, Action.work, Action.actor, Action.load, List.length_append,
      List.length_singleton]
    omega
  | notice =>
    simp only [duty, Action.work, Action.actor, Action.load, List.length_append, List.length_singleton]
    omega
  | infoSkip hfocus hmsgs =>
    simp only [duty, hmsgs, Action.work, Action.actor, Action.load, List.length_cons]
    omega
  | infoRead code hfocus hmsgs hprivate =>
    simp only [duty, Exchange.infoRead, setInfo, hfocus, hmsgs, focusDuty, Action.work, Action.actor,
      Action.load, List.length_cons]
    omega
  | setValue hfocus hunset =>
    simp only [duty, Exchange.setValue, setResponse, hfocus, focusDuty, Action.work, Action.actor,
      Action.load]
    omega
  | @removeHandle h hfocus =>
    have hfilter := List.length_filter_le (fun msg => decide (msg.handle? ≠ some h)) s.msgs
    simp only [duty, Exchange.removeHandle, hfocus, focusDuty, Action.work, Action.actor, Action.load]
    omega
  | erase hfocus hfound =>
    simp only [duty, Exchange.erase, hfocus, focusDuty, Action.work, Action.actor, Action.load]
    omega
  | pop hfocus hpending =>
    simp only [duty, Exchange.pop, hfocus, hpending, focusDuty, Action.work, Action.actor, Action.load,
      List.length_cons]
    omega
  | insert hfocus hhandle habsent =>
    simp only [duty, Exchange.insert, hfocus, focusDuty, Action.work, Action.actor, Action.load]
    omega
  | attach hfocus hdetached =>
    simp only [duty, Exchange.attach, hfocus, focusDuty, Action.work, Action.actor, Action.load]
    omega
  | attachFailed hfocus hcode =>
    simp only [duty, hfocus, focusDuty, Action.work, Action.actor, Action.load]
    omega
  | _ => exact Nat.le_refl _

/-! ## Neither loop gets stuck -/

/-- `CheckMulti` finds no message, or can take its next step. -/
theorem checkMulti_moves (lib : Library) (hs : Inv s) (hfocus : s.focus.collects = false) :
    s.focus = .idle ∧ s.msgs = [] ∨ ∃ a t, a.actor = .checkMulti ∧ Step lib s a t := by
  cases hnow : s.focus with
  | idle =>
    cases hmsgs : s.msgs with
    | nil => exact .inl ⟨rfl, rfl⟩
    | cons msg rest =>
      cases msg with
      | other => exact .inr ⟨.infoSkip, _, rfl, .infoSkip hnow hmsgs⟩
      | done h res =>
        have hm : h ∈ s.finished := by
          simp only [finished, hmsgs, List.filterMap_cons, CURLMsg.handle?, List.mem_cons, true_or]
        obtain ⟨r, -, -, hroute⟩ :=
          hs.attached_entry (hs.attachment.finished h hm) (hs.not_closing (.inr hm))
        exact .inr ⟨.infoRead h 200, _, rfl, .infoRead 200 hnow hmsgs hroute.privateData⟩
  | fulfilling h r res =>
    have hunset := (hs.custody.fulfilling h r res hnow).2
    exact .inr ⟨.setValue r, _, rfl, .setValue hnow hunset⟩
  | removing h => exact .inr ⟨.removeHandle h, _, rfl, .removeHandle hnow⟩
  | erasing h =>
    obtain ⟨r, hfound, -⟩ := hs.custody.closing h (.inr hnow)
    exact .inr ⟨.erase h, _, rfl, .erase hnow hfound⟩
  | held r | adding h r =>
    rw [hnow] at hfocus
    cases hfocus

/-- `ProcessPendingRequests` finds the queue empty, or can take its next step,
and an attach may succeed. -/
theorem processPending_moves (lib : Library) (hs : Inv s) (hfocus : s.focus.answers = false) :
    s.focus = .idle ∧ s.pendingRequests = [] ∨
      ∃ a t, a.actor = .processPendingRequests ∧ (∀ h r code, a = .addHandle h r code → code = 0) ∧
        Step lib s a t := by
  cases hnow : s.focus with
  | idle =>
    cases hpending : s.pendingRequests with
    | nil => exact .inl ⟨rfl, rfl⟩
    | cons r rest => exact .inr ⟨.pop r, _, rfl, (fun _ _ _ he => by cases he), .pop hnow hpending⟩
  | held r =>
    obtain ⟨hsent, hopen, hnot⟩ := hs.custody.held hnow
    have habsent : s.ongoingRequests (s.request r).easyCurl = none := by
      by_contra hfound
      have haborts : (⟨s, 0, ⟨none⟩, .zero, 0, [], .drain⟩ : State).Aborts .entryExists :=
        ⟨rfl, r, hnow, hfound⟩
      have hwhy : EventLoop.Handover .entryExists := trivial
      exact EventLoop.not_aborts hs hwhy haborts
    exact .inr ⟨.insert _ r, _, rfl, (fun _ _ _ he => by cases he), .insert hnow rfl habsent⟩
  | adding h r =>
    have hdetached := hs.attachment.adding h r hnow
    refine .inr ⟨.addHandle h r 0, _, rfl, fun _ _ _ he => ?_, .attach hnow hdetached⟩
    exact (Action.addHandle.inj he).2.2.symm
  | fulfilling h r res | removing h | erasing h =>
    rw [hnow] at hfocus
    cases hfocus

end

end Exchange

/-- The steps from a position back to `epoll_wait`, apart from events, messages and requests. -/
def Background.duty : Background → Nat
  | .epollWait | .dead _ => 0
  | .dispatch => 1
  | .drain | .afterCheck => 2
  | .checkMulti _ => 3
  | .socketAction _ => 4

/-- The positions in which every message has been read. -/
def Background.quiet : Background → Bool
  | .epollWait | .dispatch | .afterCheck | .drain => true
  | .socketAction _ | .checkMulti _ | .dead _ => false

section

variable [HeaderMap]

/-- What the background thread has to do before it waits again. -/
def State.duty (s : State) : Nat := s.bg.duty + 4 * s.events.length + s.exchange.duty

end

namespace EventLoop

/-- The steps of the background thread itself. -/
def Action.work : Action → Nat
  | .exchange a => a.work
  | .batchDone | .dispatch _ | .actionReturns | .checkDone | .endEventCallback _ | .pendingEmpty
  | .abort _ => 1
  | .elapse _ | .interrupted | .wake _ | .multiTimer _ => 0

/-- What a step gives the background thread to do: four steps for an event, one for a batch. -/
def Action.load : Action → Nat
  | .exchange a => a.load
  | .wake batch => 4 * batch.length + 1
  | _ => 0

/-- The background thread's own steps give it nothing to do. -/
theorem load_of_work {a : Action} (ha : a.work = 1) : a.load = 0 := by
  cases a with
  | exchange b => cases b <;> first | rfl | cases ha
  | wake batch => cases ha
  | _ => rfl

/-- No attach fails and nothing throws. -/
def Action.Succeeds : Action → Prop
  | .exchange (.addHandle _ _ code) => code = 0
  | .abort _ => False
  | _ => True

/-- A step of the exchange succeeds when it is no failed attach. -/
theorem succeeds_exchange {b : Exchange.Action} (hok : ∀ h r code, b = .addHandle h r code → code = 0) :
    (Action.exchange b).Succeeds := by
  cases b with
  | addHandle h r code => exact hok h r code rfl
  | _ => trivial

section

variable [HeaderMap] {lib : Library} {easy : CURL → Easy} {history : List (Move State Action)} {s t : State}
  {a : Action}

/-- Where it can die it has something to do. -/
theorem duty_of_aborts {why : Death} (haborts : s.Aborts why) : 0 < s.bg.duty := by
  cases why with
  | entryExists =>
    rw [haborts.1]
    decide
  | entryMissing | promiseSet | privateNull | callback fault =>
    obtain ⟨⟨caller, hbg⟩, -⟩ := haborts
    rw [hbg]
    exact Nat.succ_pos _
  | timerRead | eventRead | settime => exact absurd haborts id

/-- The work of a step is done from the duties or comes in with the step. -/
theorem duty_step (hstep : Step lib s a t) : t.duty + a.work ≤ s.duty + a.load := by
  cases hstep with
  | exchange hruns hsilent hstep =>
    have hone := Exchange.duty_step hstep
    simp only [State.duty, Action.work, Action.load]
    omega
  | signal hruns hstep hwrite =>
    have hone := Exchange.duty_step hstep
    simp only [State.duty, Action.work, Action.load]
    omega
  | signalFails hruns hstep hwrite =>
    have hone := Exchange.duty_step hstep
    simp only [State.duty, Action.work, Action.load]
    omega
  | elapse d =>
    simp only [State.duty, Action.work, Action.load]
    omega
  | interrupted hbg =>
    simp only [Action.work, Action.load]
    omega
  | wake batch hbg hsome hmax hdistinct hready =>
    simp only [State.duty, Background.duty, Action.work, Action.load]
    omega
  | batchDone hbg hevents =>
    simp only [State.duty, hbg, Background.duty, Action.work, Action.load]
    omega
  | @timer rest hbg hevents =>
    unfold State.timerCallback
    split <;>
      simp only [State.duty, hbg, hevents, Background.duty, Action.work, Action.load, List.length_cons] <;>
      omega
  | @event rest hbg hevents =>
    unfold State.eventRead
    split <;>
      simp only [State.duty, hbg, hevents, Background.duty, Action.work, Action.load, List.length_cons] <;>
      omega
  | socket hbg hevents =>
    simp only [State.duty, State.eventCallback, hbg, hevents, Background.duty, Action.work, Action.load,
      List.length_cons]
    omega
  | multiTimer timeoutMs hinside =>
    rw [settime_multiTimer]
    simp only [State.duty, Action.work, Action.load]
    omega
  | actionReturns hbg =>
    simp only [State.duty, State.actionReturns, hbg, Background.duty, Action.work, Action.load]
    omega
  | @checkDone caller hbg hfocus hmsgs =>
    cases caller <;>
      simp only [State.duty, State.checkDone, hbg, Background.duty, Action.work, Action.load] <;> omega
  | endEventCallback hbg =>
    rw [endEventCallback_eq]
    simp only [State.duty, hbg, Background.duty, Action.work, Action.load]
    omega
  | pendingEmpty hbg hfocus hpending =>
    simp only [State.duty, hbg, Background.duty, Action.work, Action.load]
    omega
  | @abort why haborts =>
    have hpos := duty_of_aborts haborts
    have hdead : (Background.dead why).duty = 0 := rfl
    simp only [State.duty, hdead, Action.work, Action.load]
    omega

/-! ## Where things are left -/

/-- What the position of the background thread says about locals, batch and messages. -/
structure Shape (s : State) : Prop where
  /-- `CheckMulti` has no request of the queue in hand. -/
  checking : ∀ caller, s.bg = .checkMulti caller → s.exchange.focus.collects = false
  /-- `ProcessPendingRequests` has no finished transfer in hand. -/
  draining : s.bg = .drain → s.exchange.focus.answers = false
  /-- The batch is finished before the next one is asked for. -/
  finished : s.bg = .epollWait → s.events = []
  /-- `CheckMulti` has read every message. -/
  read : s.bg.quiet = true → s.exchange.msgs = []

/-- A step of the exchange keeps the shape. -/
theorem Shape.exchange {b : Exchange.Action} (hs : Shape s)
    (hstep : Exchange.Step lib s.exchange b t.exchange) (hruns : s.bg.Runs b.actor)
    (hbg : t.bg = s.bg) (hevents : t.events = s.events) : Shape t where
  checking caller hcheck := by
    rw [hbg] at hcheck
    rw [hcheck] at hruns
    cases hactor : b.actor with
    | client =>
      rw [focus_kept hstep (.inl hactor)]
      exact hs.checking caller hcheck
    | checkMulti => exact (Exchange.focus_side hstep).1 hactor
    | libcurl | processPendingRequests =>
      rw [hactor] at hruns
      exact absurd hruns id
  draining hdrain := by
    rw [hbg] at hdrain
    rw [hdrain] at hruns
    cases hactor : b.actor with
    | client =>
      rw [focus_kept hstep (.inl hactor)]
      exact hs.draining hdrain
    | processPendingRequests => exact (Exchange.focus_side hstep).2 hactor
    | libcurl | checkMulti =>
      rw [hactor] at hruns
      exact absurd hruns id
  finished hwaits := by
    rw [hevents]
    exact hs.finished (hbg ▸ hwaits)
  read hquiet := by
    rw [hbg] at hquiet
    have hactor : b.actor = .client ∨ b.actor = .processPendingRequests := by
      cases hactor : b.actor with
      | client => exact .inl rfl
      | processPendingRequests => exact .inr rfl
      | libcurl | checkMulti =>
        rw [hactor] at hruns
        cases hpos : s.bg <;> rw [hpos] at hruns hquiet <;> first | exact absurd hruns id | cases hquiet
    rw [Exchange.msgs_kept hstep hactor]
    exact hs.read hquiet

/-- In a call of libcurl, and in death, nothing is asked. -/
theorem Shape.free (hbg : (∃ caller, t.bg = .socketAction caller) ∨ ∃ why, t.bg = .dead why) : Shape t := by
  constructor <;> intros <;> rcases hbg with ⟨caller, hbg⟩ | ⟨why, hbg⟩ <;>
    simp_all only [reduceCtorEq, Background.quiet, Bool.false_eq_true]

/-- Outside the loops the locals do not matter. -/
theorem Shape.between (hmsgs : t.exchange.msgs = []) (hcheck : ∀ caller, t.bg ≠ .checkMulti caller)
    (hdrain : t.bg ≠ .drain) (hwaits : t.bg = .epollWait → t.events = []) : Shape t :=
  ⟨fun caller hbg => absurd hbg (hcheck caller), fun hbg => absurd hbg hdrain, hwaits, fun _ => hmsgs⟩

/-- Every step keeps the shape. -/
theorem shape_step (hidle : ¬Handling s.bg → s.exchange.focus = .idle) (hs : Shape s)
    (hstep : Step lib s a t) : Shape t := by
  have hread {pos : Background} (hbg : s.bg = pos) (hpos : pos.quiet = true) : s.exchange.msgs = [] :=
    hs.read (hbg ▸ hpos)
  have hnone {pos : Background} (hbg : s.bg = pos) (hpos : ¬Handling pos) : s.exchange.focus = .idle :=
    hidle (hbg ▸ hpos)
  cases hstep with
  | exchange hruns hsilent hstep => exact hs.exchange hstep hruns rfl rfl
  | signal hruns hstep hwrite => exact hs.exchange hstep hruns rfl rfl
  | signalFails hruns hstep hwrite => exact hs.exchange hstep hruns rfl rfl
  | elapse d => exact ⟨hs.checking, hs.draining, hs.finished, hs.read⟩
  | interrupted hbg => exact hs
  | wake batch hbg hsome hmax hdistinct hready =>
    refine .between (hread hbg rfl) (fun _ he => ?_) (fun he => ?_) fun he => ?_ <;> cases he
  | batchDone hbg hevents =>
    refine .between (hread hbg rfl) (fun _ he => ?_) (fun he => ?_) fun _ => hevents <;> cases he
  | @timer rest hbg hevents =>
    by_cases hexpired : s.timer.Expired s.now
    · rw [timerCallback_expired rest hexpired]
      exact .free (.inl ⟨_, rfl⟩)
    · rw [timerCallback_blocked rest hexpired]
      exact .free (.inr ⟨_, rfl⟩)
  | @event rest hbg hevents =>
    have hmsgs := hread hbg rfl
    have hfocus := hnone hbg id
    unfold State.eventRead
    split
    · refine ⟨fun _ he => ?_, fun _ => ?_, fun he => ?_, fun _ => hmsgs⟩
      · cases he
      · dsimp only
        rw [hfocus]
        rfl
      · cases he
    · exact .free (.inr ⟨_, rfl⟩)
  | socket hbg hevents => exact .free (.inl ⟨_, rfl⟩)
  | multiTimer timeoutMs hinside =>
    rw [settime_multiTimer]
    exact ⟨hs.checking, hs.draining, hs.finished, hs.read⟩
  | actionReturns hbg =>
    have hfocus := hnone hbg id
    refine ⟨fun _ _ => ?_, fun he => ?_, fun he => ?_, fun he => ?_⟩
    · rw [State.actionReturns]
      dsimp only
      rw [hfocus]
      rfl
    all_goals cases he
  | @checkDone caller hbg hfocus hmsgs =>
    cases caller <;> refine .between hmsgs (fun _ he => ?_) (fun he => ?_) fun he => ?_ <;> cases he
  | endEventCallback hbg =>
    rw [endEventCallback_eq]
    refine .between (hread hbg rfl) (fun _ he => ?_) (fun he => ?_) fun he => ?_ <;> cases he
  | pendingEmpty hbg hfocus hpending =>
    refine .between (hread hbg rfl) (fun _ he => ?_) (fun he => ?_) fun he => ?_ <;> cases he
  | abort haborts => exact .free (.inr ⟨_, rfl⟩)

/-- Every reachable state has the shape. -/
theorem run_shape (hrun : Run (Step lib) (State.init easy) history s) : Shape s := by
  have hstart : Shape (State.init easy) := by
    refine .between rfl (fun _ he => ?_) (fun he => ?_) fun _ => rfl <;> cases he
  refine hrun.induct (I := fun _ s => Shape s) hstart ?_
  intro history s a t hpast hs hstep
  exact shape_step (run_focus hpast) hs hstep

/-! ## Back to `epoll_wait` -/

/-- A background thread that neither waits nor is dead can take a step of its own that succeeds. -/
theorem background_moves (hinv : s.exchange.Inv) (hs : Shape s) (hbg : s.bg ≠ .epollWait)
    (halive : ∀ why, s.bg ≠ .dead why) : ∃ a t, a.work = 1 ∧ a.Succeeds ∧ Step lib s a t := by
  cases hnow : s.bg with
  | epollWait => exact absurd hnow hbg
  | dead why => exact absurd hnow (halive why)
  | dispatch =>
    cases hevents : s.events with
    | nil => exact ⟨.batchDone, _, rfl, trivial, .batchDone hnow hevents⟩
    | cons entry rest =>
      cases entry with
      | timer => exact ⟨.dispatch .timer, _, rfl, trivial, .timer hnow hevents⟩
      | event => exact ⟨.dispatch .event, _, rfl, trivial, .event hnow hevents⟩
      | socket fd epollIn epollOut => exact ⟨.dispatch _, _, rfl, trivial, .socket hnow hevents⟩
  | socketAction caller => exact ⟨.actionReturns, _, rfl, trivial, .actionReturns hnow⟩
  | checkMulti caller =>
    rcases Exchange.checkMulti_moves lib hinv (hs.checking caller hnow) with
      ⟨hfocus, hmsgs⟩ | ⟨a, t, ha, hstep⟩
    · exact ⟨.checkDone, _, rfl, trivial, .checkDone hnow hfocus hmsgs⟩
    · refine ⟨.exchange a, _, ?_, succeeds_exchange ?_, .exchange ?_ ?_ hstep⟩
      · simp only [Action.work, Exchange.Action.work, ha]
      · rintro h r code rfl
        cases ha
      · rw [hnow, ha]
        trivial
      · cases a <;> first | rfl | cases ha
  | afterCheck => exact ⟨.endEventCallback _, _, rfl, trivial, .endEventCallback hnow⟩
  | drain =>
    rcases Exchange.processPending_moves lib hinv (hs.draining hnow) with
      ⟨hfocus, hpending⟩ | ⟨a, t, ha, hok, hstep⟩
    · exact ⟨.pendingEmpty, _, rfl, trivial, .pendingEmpty hnow hfocus hpending⟩
    · refine ⟨.exchange a, _, ?_, succeeds_exchange hok, .exchange ?_ ?_ hstep⟩
      · simp only [Action.work, Exchange.Action.work, ha]
      · rw [hnow, ha]
        trivial
      · cases a <;> first | rfl | cases ha

/-- A background thread that waits in a reachable state is at rest. -/
theorem run_atRest (hrun : Run (Step lib) (State.init easy) history s) (hwaits : s.bg = .epollWait) :
    AtRest s := by
  have hs := run_shape hrun
  have hquiet : s.bg.quiet = true := hwaits ▸ rfl
  exact ⟨hwaits, hs.finished hwaits, run_focus hrun (hwaits ▸ id), hs.read hquiet⟩

/-- In every run of the event loop, with any number of clients and in any
interleaving, the background thread has taken at most one step for each
batch, four for each event and each message, and three for each request, and
what it has not taken of them is still before it. -/
theorem run_work_bounded (hrun : Run (Step lib) (State.init easy) history s) :
    s.duty + spent Action.work history ≤ spent Action.load history := by
  have hone := hrun.amortize State.duty Action.work Action.load fun _ _ _ _ _ hstep => duty_step hstep
  have hstart : (State.init easy).duty = 0 := rfl
  omega

/-- From every reachable state the background thread, left to itself, is back
in `epoll_wait` with everything handled, or dead, after no more steps than
its duties; until then it can always take one. -/
theorem run_returns (hrun : Run (Step lib) (State.init easy) history s) :
    ComesToRest (Step lib) (fun a => a.work = 1) (fun t => AtRest t ∨ ∃ why, t.bg = .dead why) s s.duty := by
  refine comesToRest_of_potential (fun s => ∃ history, Run (Step lib) (State.init easy) history s) State.duty
    ?_ ?_ ?_ ⟨history, hrun⟩
  · rintro s a t ⟨history, hrun⟩ - hstep
    exact ⟨_, hrun.snoc hstep⟩
  · rintro s a t - hwork hstep
    have hone := duty_step hstep
    rw [hwork, load_of_work hwork] at hone
    omega
  · rintro s ⟨history, hrun⟩ hnot
    obtain ⟨hwaits, halive⟩ := not_or.mp hnot
    have hbusy : s.bg ≠ .epollWait := fun hbg => hwaits (run_atRest hrun hbg)
    obtain ⟨a, t, hwork, -, hstep⟩ :=
      background_moves (run_inv hrun) (run_shape hrun) hbusy (not_exists.mp halive)
    exact ⟨a, t, hwork, hstep⟩

end

/-- A client's request is announced while libcurl handles a socket. -/
theorem announced_run :
    ∃ history s, Run (Step .common) (State.init fun _ => {}) history s ∧
      s.bg = .socketAction (.eventCallback 9 1) ∧ s.duty = 7 ∧ spent Action.work history = 1 ∧
      spent Action.load history = 8 := by
  have start : Run (Step .common) (State.init fun _ => {}) [] _ := .nil
  have woken := start.snoc
    (.wake [.socket 9 true false] rfl (by decide) (by decide) (by decide) (by decide))
  have sent := woken.append (send_run (h := 0) trivial rfl rfl)
  have acts := sent.snoc (.socket rfl rfl)
  exact ⟨_, _, acts, rfl, rfl, rfl, rfl⟩

/-- The bound in such a run, in which nothing is left over. -/
theorem run_work_bounded_announced :
    ∃ (history : List (Move State Action)) (s : State),
      Run (Step .common) (State.init fun _ => {}) history s ∧
      s.duty = 7 ∧ spent Action.work history = 1 ∧ spent Action.load history = 8 ∧
      s.duty + spent Action.work history ≤ spent Action.load history := by
  obtain ⟨history, s, hrun, -, hduty, hwork, hload⟩ := announced_run
  exact ⟨history, s, hrun, hduty, hwork, hload, run_work_bounded hrun⟩

/-- From there the background thread returns within seven steps. -/
theorem run_returns_announced :
    ∃ (history : List (Move State Action)) (s : State),
      Run (Step .common) (State.init fun _ => {}) history s ∧ s.bg = .socketAction (.eventCallback 9 1) ∧
      ComesToRest (Step .common) (fun a => a.work = 1) (fun t => AtRest t ∨ ∃ why, t.bg = .dead why) s 7 := by
  obtain ⟨history, s, hrun, hbg, hduty, -⟩ := announced_run
  exact ⟨history, s, hrun, hbg, hduty ▸ run_returns hrun⟩

end EventLoop

end CurlHttpfs.Manager
