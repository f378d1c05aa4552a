import CurlHttpfs.Manager.LoopInvariant
import CurlHttpfs.Sockets.EpollMirror

/-!
# The event loop on its interest list

`epoll_wait` reports what the interest list waits for, and the list is kept by
`SocketCallback` inside the calls of libcurl that the loop makes. A batch is
sampled once, so by the time an entry of it is handled libcurl may have changed
its mind about the descriptor, but not before.
-/

namespace CurlHttpfs.Manager.Registration

open Curl Http Kernel Transition Sockets

/-- The descriptors the constructor creates and keeps open. -/
structure GlobalFds where
  /-- `timer_fd`. -/
  timerFd : Nat
  /-- `event_fd`. -/
  eventFd : Nat
  /-- The kernel gives out a descriptor once. -/
  distinct : timerFd ≠ eventFd

variable {fds : GlobalFds}

/-- The interest list the constructor builds, or the error it exits with. -/
def GlobalFds.create (fds : GlobalFds) : Except CtlError Epoll := do
  let epoll ← Epoll.add ⟨fun _ => none⟩ fds.timerFd ⟨true, false⟩
  epoll.add fds.eventFd ⟨true, false⟩

/-- The program's own entries. -/
def GlobalFds.own (fds : GlobalFds) : Epoll :=
  ⟨fun fd => if fd = fds.timerFd ∨ fd = fds.eventFd then some ⟨true, false⟩ else none⟩

theorem GlobalFds.create_eq (fds : GlobalFds) : fds.create = .ok fds.own := by
  have hevent : (Function.update (fun _ => none) fds.timerFd (some ⟨true, false⟩) : Nat → Option EpollMask)
      fds.eventFd = none := Function.update_of_ne fds.distinct.symm _ _
  have hlist : Function.update (Function.update (fun _ => none) fds.timerFd (some ⟨true, false⟩)) fds.eventFd
      (some ⟨true, false⟩) = fds.own.interest := by
    funext fd
    simp only [Function.update_apply, GlobalFds.own]
    by_cases he : fd = fds.eventFd
    · simp only [he, if_true, or_true]
    · simp only [he, if_false, or_false]
  change Epoll.add ⟨Function.update (fun _ => none) fds.timerFd (some ⟨true, false⟩)⟩ fds.eventFd _ = _
  unfold Epoll.add
  simp only [hevent, hlist]

/-- One entry of `events` as `epoll_wait` fills it. -/
structure EpollEntry where
  /-- `data.fd`. -/
  fd : Nat
  /-- `EPOLLIN` and `EPOLLOUT` of `events`; an error alone sets neither. -/
  events : EpollMask

/-- The branch of `HandleEvent` for a descriptor. -/
def GlobalFds.descriptor (fds : GlobalFds) (fd : Nat) : Descriptor :=
  if fd = fds.timerFd then .timerFd else if fd = fds.eventFd then .eventFd else .socket fd

/-- What `HandleEvent` takes an entry for. -/
def GlobalFds.branch (fds : GlobalFds) (entry : EpollEntry) : EpollEvent :=
  match fds.descriptor entry.fd with
  | .timerFd => .timer
  | .eventFd => .event
  | .socket fd => .socket fd entry.events.epollIn entry.events.epollOut

theorem GlobalFds.branch_fd (fds : GlobalFds) (entry : EpollEntry) :
    (fds.branch entry).fd = fds.descriptor entry.fd := by
  unfold GlobalFds.branch
  cases fds.descriptor entry.fd with
  | timerFd => rfl
  | eventFd => rfl
  | socket fd => rfl

/-- Different descriptors go to different branches or are told apart there. -/
theorem GlobalFds.descriptor_injective (fds : GlobalFds) : Function.Injective fds.descriptor := by
  intro a b h
  unfold GlobalFds.descriptor at h
  grind

/-- A socket entry names a descriptor that is not one of the program's own. -/
theorem GlobalFds.branch_socket {entry : EpollEntry} {fd : Nat} {epollIn epollOut : Bool}
    (h : fds.branch entry = .socket fd epollIn epollOut) :
    entry = ⟨fd, ⟨epollIn, epollOut⟩⟩ ∧ fds.own.interest fd = none := by
  unfold GlobalFds.branch GlobalFds.descriptor at h
  by_cases htimer : entry.fd = fds.timerFd
  · rw [if_pos htimer] at h
    cases h
  · by_cases hevent : entry.fd = fds.eventFd
    · rw [if_neg htimer, if_pos hevent] at h
      cases h
    · rw [if_neg htimer, if_neg hevent] at h
      cases h
      exact ⟨rfl, if_neg (not_or.mpr ⟨htimer, hevent⟩)⟩

/-! ## What libcurl asked for -/

/-- The label of a step. -/
inductive Action where
  /-- A step of the event loop other than a wake-up. -/
  | loop (a : EventLoop.Action)
  /-- `epoll_wait` fills its array. -/
  | wake (array : List EpollEntry)
  /-- libcurl calls `SocketCallback` or closes a socket. -/
  | socket (event : Sockets.Event)

/-- The step of the event loop a label stands for. -/
def GlobalFds.visible (fds : GlobalFds) : Action → Option EventLoop.Action
  | .loop a => some a
  | .wake array => some (.wake (array.map fds.branch))
  | .socket _ => none

/-- The socket event of a label. -/
def Action.socketEvent? : Action → Option Sockets.Event
  | .socket event => some event
  | _ => none

/-- The socket events of a sequence of labels. -/
def socketEvents (actions : List Action) : List Sockets.Event := actions.filterMap Action.socketEvent?

/-- Whether a step is a wake-up. -/
def Action.isWake : Action → Bool
  | .wake _ => true
  | _ => false

/-- The events were asked for when the last batch was taken, and the request
stands unless libcurl has made another one about the descriptor since. -/
def AskedAtWake (actions : List Action) (fd : Nat) (events : EpollMask) : Prop :=
  ∃ earlier array later what, actions = earlier ++ .wake array :: later ∧
    (∀ a ∈ later, a.isWake = false) ∧ requested (socketEvents earlier) fd = some what ∧
    (∀ f, events.has f = true → what.has f = true) ∧
    ((∀ event ∈ socketEvents later, event.fd ≠ fd) → requested (socketEvents actions) fd = some what)

theorem socketEvents_append (a b : List Action) : socketEvents (a ++ b) = socketEvents a ++ socketEvents b :=
  List.filterMap_append

/-- A legal history of labels has legal beginnings. -/
theorem legal_before {own : Epoll} {earlier later : List Action}
    (h : Linux.Legal own (socketEvents (earlier ++ later))) : Linux.Legal own (socketEvents earlier) := by
  rw [socketEvents_append] at h
  exact ⟨h.kept.of_prefix (List.prefix_append _ _),
    fun event he => h.foreign event (List.mem_append_left _ he)⟩

/-- What was asked for at a wake-up is so behind further steps. -/
theorem AskedAtWake.snoc {actions : List Action} {fd : Nat} {events : EpollMask}
    (h : AskedAtWake actions fd events) {a : Action} (ha : a.isWake = false) :
    AskedAtWake (actions ++ [a]) fd events := by
  obtain ⟨earlier, array, later, what, rfl, hlater, hasked, hevents, -⟩ := h
  refine ⟨earlier, array, later ++ [a], what, by simp only [List.append_assoc, List.cons_append], ?_,
    hasked, hevents, ?_⟩
  · intro b hb
    rcases List.mem_append.mp hb with hb | hb
    · exact hlater b hb
    · rw [List.mem_singleton.mp hb]
      exact ha
  · intro hquiet
    have hall : socketEvents (earlier ++ .wake array :: later ++ [a]) =
        socketEvents earlier ++ socketEvents (later ++ [a]) := by
      rw [List.append_assoc, socketEvents_append]
      rfl
    rw [hall, requested_undisturbed _ _ hquiet, hasked]

/-- A batch asks for what the interest list asks for. -/
theorem askedAtWake_wake {actions : List Action} (array : List EpollEntry) {fd : Nat} {events : EpollMask}
    {what : Poll} (hasked : requested (socketEvents actions) fd = some what)
    (hevents : ∀ f, events.has f = true → what.has f = true) :
    AskedAtWake (actions ++ [.wake array]) fd events := by
  refine ⟨actions, array, [], what, rfl, fun a ha => absurd ha List.not_mem_nil, hasked, hevents, ?_⟩
  intro _
  rw [socketEvents_append]
  exact (congrArg (requested · fd) (List.append_nil _)).trans hasked

/-! ## The system -/

section

variable [HeaderMap]

/-- The event loop with the interest list, or the exception that `SocketCallback` threw. -/
structure System where
  /-- The event loop. -/
  loop : State
  /-- `epoll_fd` and the objects of the sockets. -/
  sockets : Except CtlError Linux.GlobalInfo

/-- What the constructor leaves. -/
def System.init (fds : GlobalFds) (easy : CURL → Easy) : System where
  loop := .init easy
  sockets := fds.create.map fun epoll => ⟨epoll, fun _ => none⟩

/-- The kernel may report a registered descriptor that is ready, with events its entry waits for. -/
def GlobalFds.Reports (fds : GlobalFds) (s : State) (epoll : Epoll) (entry : EpollEntry) : Prop :=
  s.Ready (fds.branch entry) ∧
    ∃ mask, epoll.interest entry.fd = some mask ∧ ∀ f, entry.events.has f = true → mask.has f = true

/-- The steps of the event loop on its interest list. Behind an exception there are none. -/
inductive Step (lib : Library) (fds : GlobalFds) : System → Action → System → Prop
  | loop {s : System} {a : EventLoop.Action} {t : State} {g : Linux.GlobalInfo} (hlive : s.sockets = .ok g)
      (hother : ∀ batch, a ≠ .wake batch) (hstep : EventLoop.Step lib s.loop a t) :
      Step lib fds s (.loop a) { s with loop := t }
  | wake {s : System} {g : Linux.GlobalInfo} (array : List EpollEntry) (hlive : s.sockets = .ok g)
      (hbg : s.loop.bg = .epollWait) (hsome : array ≠ []) (hmax : array.length ≤ maxEvents)
      (hdistinct : (array.map EpollEntry.fd).Nodup)
      (hreports : ∀ entry ∈ array, fds.Reports s.loop g.epoll entry) :
      Step lib fds s (.wake array)
        { s with loop := { s.loop with events := array.map fds.branch, bg := .dispatch } }
  | socket {s : System} {g : Linux.GlobalInfo} (event : Sockets.Event) (hlive : s.sockets = .ok g)
      (hinside : s.loop.InLibcurl) : Step lib fds s (.socket event) { s with sockets := Linux.step g event }

/-! ## Steps -/

/-- The batch grows at wake-ups only. -/
theorem events_subset {lib : Library} {s t : State} {a : EventLoop.Action} (hstep : EventLoop.Step lib s a t)
    (hother : ∀ batch, a ≠ .wake batch) : t.events ⊆ s.events := by
  cases hstep with
  | exchange hruns hsilent hstep => exact List.Subset.refl _
  | signal hruns hstep hwrite => exact List.Subset.refl _
  | signalFails hruns hstep hwrite => exact List.Subset.refl _
  | elapse d => exact List.Subset.refl _
  | interrupted hbg => exact List.Subset.refl _
  | wake batch hbg hsome hmax hdistinct hready => exact absurd rfl (hother batch)
  | batchDone hbg hevents => exact List.Subset.refl _
  | @timer rest hbg hevents =>
    by_cases hexpired : s.timer.Expired s.now
    · rw [EventLoop.timerCallback_expired rest hexpired, hevents]
      exact List.subset_cons_self _ _
    · rw [EventLoop.timerCallback_blocked rest hexpired]
      exact List.Subset.refl _
  | @event rest hbg hevents =>
    unfold State.eventRead
    cases s.eventFd.read with
    | none => exact List.Subset.refl _
    | some result =>
      rw [hevents]
      exact List.subset_cons_self _ _
  | socket hbg hevents =>
    rw [hevents]
    exact List.subset_cons_self _ _
  | multiTimer timeoutMs hinside =>
    rw [EventLoop.settime_multiTimer]
    exact List.Subset.refl _
  | actionReturns hbg => exact List.Subset.refl _
  | @checkDone caller hbg hfocus hmsgs => cases caller <;> exact List.Subset.refl _
  | endEventCallback hbg =>
    rw [EventLoop.endEventCallback_eq]
    exact List.Subset.refl _
  | pendingEmpty hbg hfocus hpending => exact List.Subset.refl _
  | abort haborts => exact List.Subset.refl _

/-! ## Runs -/

variable {lib : Library} {easy : CURL → Easy} {history : List (Move System Action)} {s : System}

/-- A run on the interest list is a run of the event loop. -/
theorem run_loop (hrun : Run (Step lib fds) (System.init fds easy) history s) :
    ∃ loopHistory, Run (EventLoop.Step lib) (State.init easy) loopHistory s.loop ∧
      labels loopHistory = (labels history).filterMap fds.visible := by
  refine hrun.project System.loop fds.visible ?_ ?_
  · intro s a t hstep hvisible
    cases hstep with
    | loop hlive hother hstep => cases hvisible
    | wake array hlive hbg hsome hmax hdistinct hreports => cases hvisible
    | socket event hlive hinside => rfl
  · intro s a b t hstep hvisible
    cases hstep with
    | loop hlive hother hstep =>
      cases hvisible
      exact hstep
    | wake array hlive hbg hsome hmax hdistinct hreports =>
      cases hvisible
      have hfds : ((array.map fds.branch).map EpollEvent.fd) = (array.map EpollEntry.fd).map fds.descriptor := by
        rw [List.map_map, List.map_map]
        exact List.map_congr_left fun entry _ => fds.branch_fd entry
      refine .wake _ hbg ?_ ?_ ?_ ?_
      · exact fun hnil => hsome (List.map_eq_nil_iff.mp hnil)
      · rw [List.length_map]
        exact hmax
      · rw [hfds]
        exact hdistinct.map fds.descriptor_injective
      · intro taken htaken
        obtain ⟨entry, hentry, rfl⟩ := List.mem_map.mp htaken
        exact (hreports entry hentry).1
    | socket event hlive hinside => cases hvisible

/-- With legal socket events no exception leaves `SocketCallback`, and the
list follows what libcurl asks for. -/
theorem run_sockets (hrun : Run (Step lib fds) (System.init fds easy) history s)
    (hlegal : Linux.Legal fds.own (socketEvents (labels history))) :
    ∃ g, s.sockets = .ok g ∧ Linux.Follows fds.own (socketEvents (labels history)) g := by
  refine hrun.induct (I := fun history s => Linux.Legal fds.own (socketEvents (labels history)) →
    ∃ g, s.sockets = .ok g ∧ Linux.Follows fds.own (socketEvents (labels history)) g) ?_ ?_ hlegal
  · intro _
    rw [System.init, fds.create_eq]
    exact ⟨_, rfl, fun _ => rfl, fun _ _ => rfl, fun _ _ hmask => Or.inl hmask⟩
  · intro history s a t hpast hs hstep hlegal
    rw [labels_snoc, socketEvents_append] at hlegal ⊢
    cases hstep with
    | loop hlive hother hstep =>
      rw [show socketEvents [Action.loop _] = [] from rfl, List.append_nil] at hlegal ⊢
      exact hs hlegal
    | wake array hlive hbg hsome hmax hdistinct hreports =>
      rw [show socketEvents [Action.wake _] = [] from rfl, List.append_nil] at hlegal ⊢
      exact hs hlegal
    | @socket g event hlive hinside =>
      rw [show socketEvents [Action.socket event] = [event] from rfl] at hlegal ⊢
      obtain ⟨hbefore, hown, hopen⟩ := hlegal.split
      obtain ⟨g', hlive', hfollows⟩ := hs hbefore
      obtain rfl : g = g' := Except.ok.inj (hlive.symm.trans hlive')
      obtain ⟨assigned, hstep, hafter⟩ := hfollows.step hown hopen
      exact ⟨_, hstep, hafter⟩

/-- Reports about sockets are what libcurl asked for, descriptor zero apart. -/
theorem reports_asked {events : List Sockets.Event} {g : Linux.GlobalInfo} (hg : Linux.Follows fds.own events g)
    {s : State} {entry : EpollEntry} (hreports : fds.Reports s g.epoll entry)
    (hforeign : fds.own.interest entry.fd = none) (hzero : entry.fd ≠ 0) :
    ∃ what, requested events entry.fd = some what ∧ ∀ f, entry.events.has f = true → what.has f = true := by
  obtain ⟨-, mask, hmask, hevents⟩ := hreports
  rw [hg.entry entry.fd (Or.inl hzero), Linux.asked, hforeign, Option.or_none] at hmask
  obtain ⟨what, hwhat, rfl⟩ := Option.map_eq_some_iff.mp hmask
  exact ⟨what, hwhat, fun f hf => what.kind_has f ▸ hevents f hf⟩

/-- The sockets of the batch in hand were asked for when it was taken. -/
theorem run_batch (hrun : Run (Step lib fds) (System.init fds easy) history s)
    (hlegal : Linux.Legal fds.own (socketEvents (labels history))) {fd : Nat} {epollIn epollOut : Bool}
    (hentry : .socket fd epollIn epollOut ∈ s.loop.events) (hzero : fd ≠ 0) :
    AskedAtWake (labels history) fd ⟨epollIn, epollOut⟩ := by
  refine hrun.induct (I := fun history s => Linux.Legal fds.own (socketEvents (labels history)) →
    .socket fd epollIn epollOut ∈ s.loop.events → AskedAtWake (labels history) fd ⟨epollIn, epollOut⟩)
    ?_ ?_ hlegal hentry
  · exact fun _ hmem => absurd hmem List.not_mem_nil
  · intro history s a t hpast hs hstep hlegal hmem
    rw [labels_snoc] at hlegal ⊢
    have hbefore := legal_before hlegal
    cases hstep with
    | loop hlive hother hstep => exact (hs hbefore (events_subset hstep hother hmem)).snoc rfl
    | @wake g array hlive hbg hsome hmax hdistinct hreports =>
      obtain ⟨entry, hentry, hbranch⟩ := List.mem_map.mp hmem
      obtain ⟨rfl, hforeign⟩ := fds.branch_socket hbranch
      obtain ⟨g', hlive', hfollows⟩ := run_sockets hpast hbefore
      obtain rfl : g = g' := Except.ok.inj (hlive.symm.trans hlive')
      obtain ⟨what, hasked, hevents⟩ := reports_asked hfollows (hreports _ hentry) hforeign hzero
      exact askedAtWake_wake array hasked hevents
    | socket event hlive hinside => exact (hs hbefore hmem).snoc rfl

end

end CurlHttpfs.Manager.Registration
