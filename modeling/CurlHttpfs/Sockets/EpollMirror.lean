import CurlHttpfs.Sockets.Interest

/-!
# `SocketCallback` on Linux

An entry of the interest list is changed by deleting and adding it. The delete
is skipped for an object whose `sockfd` is zero, which means a fresh object and
also an object for descriptor zero: there the add fails unnoticed, and the
entry keeps its old mask and outlives its removal.
-/

namespace CurlHttpfs.Sockets.Linux

open Curl Kernel

/-- The interest list of `epoll_fd`, and the pointers assigned to the sockets. -/
structure GlobalInfo where
  /-- The kernel's side of `epoll_fd`. -/
  epoll : Epoll
  /-- The object that libcurl passes for a socket. -/
  assigned : Nat → Option SockInfo

/-- `RemoveSockInfo`. -/
def removeSockInfo (f : Option SockInfo) (epoll : Epoll) : Except CtlError Epoll :=
  match f with
  | none => .ok epoll
  | some f => if f.sockfd ≠ 0 then epoll.del f.sockfd else .ok epoll

/-- `SetSockInfo`, which returns the object as it is afterwards. -/
def setSockInfo (f : SockInfo) (s : Nat) (e : CURL) (act : Poll) (epoll : Epoll) :
    Except CtlError (SockInfo × Epoll) := do
  let epoll ← if f.sockfd ≠ 0 then epoll.del f.sockfd else .ok epoll
  return (⟨s, some e, some act⟩, epoll.tryAdd s act.kind)

/-- `AddSockInfo`. -/
def addSockInfo (s : Nat) (easy : CURL) (action : Poll) (epoll : Epoll) :
    Except CtlError (SockInfo × Epoll) :=
  setSockInfo {} s easy action epoll

/-- `SocketCallback`, which returns the object that libcurl passes next. -/
def socketCallback (e : CURL) (s : Nat) (what : Poll) (sockp : Option SockInfo) (epoll : Epoll) :
    Except CtlError (Option SockInfo × Epoll) :=
  if what = .pollRemove then do
    let epoll ← removeSockInfo sockp epoll
    return (none, epoll)
  else
    match sockp with
    | none => do
      let (f, epoll) ← addSockInfo s e what epoll
      return (some f, epoll)
    | some f => do
      let (f, epoll) ← setSockInfo f s e what epoll
      return (some f, epoll)

/-- One event. An error of the callback is thrown through libcurl. -/
def step (g : GlobalInfo) : Event → Except CtlError GlobalInfo
  | .call easy s what => do
    let (f, epoll) ← socketCallback easy s what (g.assigned s) g.epoll
    return ⟨epoll, Function.update g.assigned s f⟩
  | .close s => return { g with epoll := g.epoll.close s }

/-- Events from the interest list with the program's own descriptors. -/
def run (own : Epoll) (events : List Event) : Except CtlError GlobalInfo :=
  events.foldlM step ⟨own, fun _ => none⟩

/-- The interest list that libcurl asked for, beside the program's own entries. -/
def asked (own : Epoll) (events : List Event) (fd : Nat) : Option EpollMask :=
  ((requested events fd).map Poll.kind).or (own.interest fd)

/-- The interest list is the one that libcurl asked for. -/
def Mirrors (own : Epoll) (events : List Event) (epoll : Epoll) : Prop :=
  ∀ fd, epoll.interest fd = asked own events fd

/-- The run of these events throws nothing and ends with the list that libcurl asked for. -/
def Mirrored (own : Epoll) (events : List Event) : Prop :=
  ∃ g, run own events = .ok g ∧ Mirrors own events g.epoll

/-- A call about descriptor zero either is a first one or repeats the last request. -/
def ZeroSettled (earlier : List Event) : Event → Prop
  | .call _ s what => s = 0 → requested earlier s = none ∨ requested earlier s = some what
  | .close _ => True

/-! ## One call -/

section Calls

variable {epoll : Epoll} {s : Nat} {last : Option Poll}

/-- An object that denotes the socket has its entry replaced, a fresh one keeps
an entry that is there. -/
theorem setSockInfo_eq {f : SockInfo} (easy : CURL) (act : Poll)
    (h : f.sockfd ≠ 0 → f.sockfd = s ∧ epoll.interest s ≠ none) :
    setSockInfo f s easy act epoll = .ok (⟨s, some easy, some act⟩,
      ⟨Function.update epoll.interest s
        (if f.sockfd = 0 then (epoll.interest s).or (some act.kind) else some act.kind)⟩) := by
  unfold setSockInfo
  by_cases hzero : f.sockfd = 0
  · rw [if_neg (not_not_intro hzero), if_pos hzero, ← Epoll.tryAdd_eq]
    rfl
  · obtain ⟨hfd, hentry⟩ := h hzero
    obtain ⟨old, hold⟩ := Option.ne_none_iff_exists'.mp hentry
    rw [if_pos hzero, if_neg hzero, hfd, Epoll.del_present hold]
    change Except.ok (_, Epoll.tryAdd _ _ _) = _
    simp only [Epoll.tryAdd_eq, Function.update_self, Function.update_idem, Option.none_or]

variable {sockp : Option SockInfo}

/-- The object of the last request takes its entry with it, except that of descriptor zero. -/
theorem removeSockInfo_eq (hobject : sockp.map SockInfo.sockfd = last.map fun _ => s)
    (hentry : s ≠ 0 → epoll.interest s = last.map Poll.kind) :
    removeSockInfo sockp epoll =
      .ok ⟨Function.update epoll.interest s (if s = 0 then epoll.interest s else none)⟩ := by
  cases sockp with
  | none =>
    have hsame : (if s = 0 then epoll.interest s else none) = epoll.interest s := by
      by_cases hs : s = 0
      · rw [if_pos hs]
      · rw [if_neg hs, hentry hs, Option.map_eq_none_iff.mp hobject.symm, Option.map_none]
    rw [hsame, Function.update_eq_self]
    rfl
  | some f =>
    obtain ⟨hfd, before, rfl⟩ := object_last hobject
    rw [removeSockInfo, hfd]
    by_cases hs : s = 0
    · rw [if_neg (not_not_intro hs), if_pos hs, Function.update_eq_self]
    · rw [if_pos hs, if_neg hs, Epoll.del_present (hentry hs)]

/-- A fresh object gets an entry unless there is one. -/
theorem addSockInfo_eq (s : Nat) (easy : CURL) (act : Poll) :
    addSockInfo s easy act epoll = .ok (⟨s, some easy, some act⟩,
      ⟨Function.update epoll.interest s ((epoll.interest s).or (some act.kind))⟩) := by
  rw [addSockInfo, setSockInfo_eq easy act fun h => absurd rfl h]
  rfl

/-- The entry of a socket behind a call. -/
def entryAfter (s : Nat) (old : Option EpollMask) (what : Poll) : Option EpollMask :=
  if s = 0 then old.or (what.standing.map Poll.kind) else what.standing.map Poll.kind

/-- With the object of the last request, and its entry in place where the
descriptor is not zero, the callback never throws. -/
theorem socketCallback_eq (easy : CURL) (what : Poll)
    (hobject : sockp.map SockInfo.sockfd = last.map fun _ => s)
    (hentry : s ≠ 0 → epoll.interest s = last.map Poll.kind) :
    socketCallback easy s what sockp epoll =
      .ok (what.standing.map fun act => ⟨s, some easy, some act⟩,
        ⟨Function.update epoll.interest s (entryAfter s (epoll.interest s) what)⟩) := by
  unfold socketCallback
  by_cases hwhat : what = .pollRemove
  · subst hwhat
    have hafter : entryAfter s (epoll.interest s) .pollRemove = if s = 0 then epoll.interest s else none :=
      congrArg (ite (s = 0) · none) Option.or_none
    rw [if_pos rfl, removeSockInfo_eq hobject hentry, hafter]
    rfl
  · rw [if_neg hwhat, entryAfter, Poll.standing_of_ne hwhat]
    cases sockp with
    | none =>
      have hafter : (if s = 0 then (epoll.interest s).or (some what.kind) else some what.kind) =
          (epoll.interest s).or (some what.kind) := by
        by_cases hs : s = 0
        · rw [if_pos hs]
        · rw [if_neg hs, hentry hs, Option.map_eq_none_iff.mp hobject.symm, Option.map_none, Option.none_or]
      simp only [addSockInfo_eq, Option.map_some, hafter]
      rfl
    | some f =>
      obtain ⟨hfd, before, rfl⟩ := object_last hobject
      have hpresent : f.sockfd ≠ 0 → f.sockfd = s ∧ epoll.interest s ≠ none := by
        intro hf
        rw [hentry (hfd ▸ hf)]
        exact ⟨hfd, Option.some_ne_none _⟩
      simp only [setSockInfo_eq easy what hpresent, hfd]
      rfl

end Calls

/-! ## Runs -/

section Runs

variable {own : Epoll} {events : List Event} {event : Event} {g : GlobalInfo}

/-- What holds behind every run: each object denotes its socket, the entries
are as asked except where a socket has descriptor zero, and every entry is one
of the program or was made for an action. -/
structure Follows (own : Epoll) (events : List Event) (g : GlobalInfo) : Prop where
  /-- Sockets with a request have an object with their descriptor. -/
  object : ∀ fd, (g.assigned fd).map SockInfo.sockfd = (requested events fd).map fun _ => fd
  /-- Entries of other descriptors than zero, and of the program's own. -/
  entry : ∀ fd, fd ≠ 0 ∨ own.interest fd ≠ none → g.epoll.interest fd = asked own events fd
  /-- Where an entry comes from. -/
  origin : ∀ fd mask, g.epoll.interest fd = some mask →
    own.interest fd = some mask ∨ ∃ what, what ≠ Poll.pollRemove ∧ mask = what.kind

theorem run_concat (own : Epoll) (events : List Event) (event : Event) :
    run own (events ++ [event]) = run own events >>= fun g => step g event := by
  simp only [run, List.foldlM_append, List.foldlM_cons, List.foldlM_nil, bind_pure]

/-- An event changes what is asked about its own descriptor only. -/
theorem asked_other {fd : Nat} (h : fd ≠ event.fd) :
    asked own (events ++ [event]) fd = asked own events fd := by
  rw [asked, asked, requested_concat, noteEvent_other _ h]

/-- Behind a call the request of the action is asked for. -/
theorem asked_call (easy : CURL) (what : Poll) {s : Nat} (hown : own.interest s = none) :
    asked own (events ++ [.call easy s what]) s = what.standing.map Poll.kind := by
  rw [asked, requested_concat, noteEvent, Function.update_self, hown, Option.or_none]

/-- A closed descriptor has no entry to ask for. -/
theorem asked_close {s : Nat} (hown : own.interest s = none) (h : requested events s = none) :
    asked own (events ++ [.close s]) s = none := by
  rw [asked, requested_concat, noteEvent, h, hown]
  rfl

/-- The interest list behind an event. -/
def listAfter (epoll : Epoll) : Event → Nat → Option EpollMask
  | .call _ s what => Function.update epoll.interest s (entryAfter s (epoll.interest s) what)
  | .close s => Function.update epoll.interest s none

/-- No event throws, and the event's own entry changes as told. -/
theorem Follows.step_ok (h : Follows own events g) (hown : own.interest event.fd = none) :
    ∃ assigned, step g event = .ok ⟨⟨listAfter g.epoll event⟩, assigned⟩ ∧
      ∀ fd, (assigned fd).map SockInfo.sockfd = (requested (events ++ [event]) fd).map fun _ => fd := by
  cases event with
  | call easy s what =>
    have hentry : s ≠ 0 → g.epoll.interest s = (requested events s).map Poll.kind := by
      intro hs
      rw [h.entry s (Or.inl hs), asked, show own.interest s = none from hown, Option.or_none]
    refine ⟨_, by rw [step, socketCallback_eq easy what (h.object s) hentry]; rfl, ?_⟩
    intro fd
    rw [requested_concat, noteEvent]
    by_cases hfd : fd = s
    · subst hfd
      rw [Function.update_self, Function.update_self, Option.map_map]
      rfl
    · rw [Function.update_of_ne hfd, Function.update_of_ne hfd]
      exact h.object fd
  | close s =>
    refine ⟨g.assigned, rfl, ?_⟩
    intro fd
    rw [requested_concat]
    exact h.object fd

theorem listAfter_other {epoll : Epoll} {fd : Nat} (h : fd ≠ event.fd) :
    listAfter epoll event fd = epoll.interest fd := by
  cases event with
  | call easy s what => exact Function.update_of_ne h _ _
  | close s => exact Function.update_of_ne h _ _

/-- The entry of another descriptor than zero becomes the one that is asked for. -/
theorem listAfter_asked (epoll : Epoll) (hown : own.interest event.fd = none)
    (hopen : ∀ s, event = .close s → requested events s = none) (hzero : event.fd ≠ 0) :
    listAfter epoll event event.fd = asked own (events ++ [event]) event.fd := by
  cases event with
  | call easy s what =>
    rw [Event.fd, asked_call (s := s) easy what hown, listAfter, Function.update_self, entryAfter,
      if_neg (c := s = 0) hzero]
  | close s =>
    rw [Event.fd, asked_close (s := s) hown (hopen s rfl), listAfter, Function.update_self]

/-- The entry of descriptor zero, once as asked, becomes the one that is asked
for exactly when the call leaves it settled. -/
theorem listAfter_zero {epoll : Epoll} (hown : own.interest event.fd = none)
    (hopen : ∀ s, event = .close s → requested events s = none) (hzero : event.fd = 0)
    (h : epoll.interest 0 = asked own events 0) :
    listAfter epoll event 0 = asked own (events ++ [event]) 0 ↔ ZeroSettled events event := by
  cases event with
  | call easy s what =>
    obtain rfl : s = 0 := hzero
    rw [asked, show own.interest 0 = none from hown, Option.or_none] at h
    rw [asked_call (s := 0) easy what hown, listAfter, Function.update_self, entryAfter, if_pos rfl, h,
      ZeroSettled]
    cases hlast : requested events 0 with
    | none => exact iff_of_true rfl fun _ => Or.inl rfl
    | some last =>
      have hne : last ≠ .pollRemove := by
        rintro rfl
        exact requested_ne_remove events 0 hlast
      rw [Option.map_some, Option.some_or]
      by_cases hwhat : what = .pollRemove
      · subst hwhat
        refine iff_of_false (Option.some_ne_none _) fun hsettled => ?_
        rcases hsettled rfl with hnone | hsame
        · cases hnone
        · exact hne (Option.some.inj hsame)
      · rw [Poll.standing_of_ne hwhat, Option.map_some, Option.some.injEq, Poll.kind_inj hne hwhat]
        constructor
        · exact fun he _ => Or.inr (congrArg some he)
        · exact fun hsettled => Option.some.inj ((hsettled rfl).resolve_left (Option.some_ne_none _))
  | close s =>
    obtain rfl : s = 0 := hzero
    rw [asked_close (s := 0) hown (hopen 0 rfl), listAfter, Function.update_self]
    exact iff_of_true rfl trivial

/-- Entries are only made for actions. -/
theorem listAfter_origin {epoll : Epoll} {fd : Nat} {mask : EpollMask}
    (h : listAfter epoll event fd = some mask) :
    epoll.interest fd = some mask ∨ ∃ what, what ≠ Poll.pollRemove ∧ mask = what.kind := by
  by_cases hfd : fd = event.fd
  · subst hfd
    cases event with
    | call easy s what =>
      rw [listAfter, Event.fd, Function.update_self, entryAfter] at h
      have hcases : epoll.interest s = some mask ∨ what.standing.map Poll.kind = some mask := by
        split at h
        · exact (Option.or_eq_some_iff.mp h).imp id And.right
        · exact Or.inr h
      refine hcases.imp id fun hmask => ⟨what, ?_⟩
      have hwhat : what ≠ .pollRemove := by
        rintro rfl
        cases hmask
      rw [Poll.standing_of_ne hwhat] at hmask
      exact ⟨hwhat, (Option.some.inj hmask).symm⟩
    | close s =>
      rw [listAfter, Event.fd, Function.update_self] at h
      cases h
  · rw [listAfter_other hfd] at h
    exact Or.inl h

/-- Every event is carried out, and what holds behind every run is kept. -/
theorem Follows.step (h : Follows own events g) (hown : own.interest event.fd = none)
    (hopen : ∀ s, event = .close s → requested events s = none) :
    ∃ assigned, Linux.step g event = .ok ⟨⟨listAfter g.epoll event⟩, assigned⟩ ∧
      Follows own (events ++ [event]) ⟨⟨listAfter g.epoll event⟩, assigned⟩ := by
  obtain ⟨assigned, hstep, hobject⟩ := h.step_ok hown
  refine ⟨assigned, hstep, hobject, ?_, ?_⟩
  · intro fd hfd
    by_cases hevent : fd = event.fd
    · subst hevent
      exact listAfter_asked g.epoll hown hopen (hfd.resolve_right (not_not_intro hown))
    · rw [asked_other hevent, ← h.entry fd hfd]
      exact listAfter_other hevent
  · intro fd mask hmask
    rcases listAfter_origin hmask with hbefore | hmade
    · exact h.origin fd mask hbefore
    · exact Or.inr hmade

/-- Histories that libcurl and the kernel can produce beside the program's own descriptors. -/
structure Legal (own : Epoll) (events : List Event) : Prop where
  /-- Sockets stay open until their removal. -/
  kept : KeptOpen events
  /-- Sockets are not the program's own descriptors. -/
  foreign : ∀ event ∈ events, own.interest event.fd = none

/-- A legal history has legal beginnings, and its last event is legal. -/
theorem Legal.split (h : Legal own (events ++ [event])) : Legal own events ∧
    own.interest event.fd = none ∧ ∀ s, event = .close s → requested events s = none := by
  obtain ⟨hbefore, hlast⟩ := (throughout_concat events event).mp h.kept
  exact ⟨⟨hbefore, fun e he => h.foreign e (List.mem_append_left _ he)⟩,
    h.foreign event (List.mem_append_right _ List.mem_cons_self), hlast⟩

/-- No exception is thrown through libcurl. -/
theorem run_follows (h : Legal own events) : ∃ g, run own events = .ok g ∧ Follows own events g := by
  induction events using List.reverseRecOn with
  | nil =>
    exact ⟨⟨own, fun _ => none⟩, rfl, fun _ => rfl, fun _ _ => rfl, fun _ _ hmask => Or.inl hmask⟩
  | append_singleton events event ih =>
    obtain ⟨hbefore, hown, hopen⟩ := h.split
    obtain ⟨g, hrun, hfollows⟩ := ih hbefore
    obtain ⟨assigned, hstep, hafter⟩ := hfollows.step hown hopen
    refine ⟨_, ?_, hafter⟩
    rw [run_concat, hrun]
    exact hstep

/-- Behind a run whose list is as asked, one more event leaves it so exactly
when it leaves descriptor zero settled. -/
theorem mirrored_concat_iff (h : Legal own (events ++ [event])) (hbefore : Mirrored own events) :
    Mirrored own (events ++ [event]) ↔ ZeroSettled events event := by
  obtain ⟨hlegal, hown, hopen⟩ := h.split
  obtain ⟨g, hrun, hmirrors⟩ := hbefore
  obtain ⟨g', hrun', hfollows⟩ := run_follows hlegal
  obtain rfl : g = g' := Except.ok.inj (hrun.symm.trans hrun')
  obtain ⟨assigned, hstep, hafter⟩ := hfollows.step hown hopen
  have hlast : run own (events ++ [event]) = .ok ⟨⟨listAfter g.epoll event⟩, assigned⟩ := by
    rw [run_concat, hrun]
    exact hstep
  have hother (fd : Nat) (hfd : fd ≠ event.fd) :
      listAfter g.epoll event fd = asked own (events ++ [event]) fd := by
    rw [listAfter_other hfd, asked_other hfd]
    exact hmirrors fd
  have hiff : Mirrors own (events ++ [event]) ⟨listAfter g.epoll event⟩ ↔ ZeroSettled events event := by
    by_cases hzero : event.fd = 0
    · rw [← listAfter_zero hown hopen hzero (hmirrors 0)]
      refine ⟨fun hall => hall 0, fun hat fd => ?_⟩
      by_cases hfd : fd = 0
      · rw [hfd]
        exact hat
      · exact hother fd (hzero ▸ hfd)
    · refine iff_of_true (fun fd => ?_) ?_
      · by_cases hfd : fd = event.fd
        · rw [hfd]
          exact listAfter_asked g.epoll hown hopen hzero
        · exact hother fd hfd
      · cases event with
        | call easy s what => exact fun hs => absurd hs hzero
        | close s => trivial
  rw [Mirrored, hlast]
  constructor
  · rintro ⟨_, he, hall⟩
    cases he
    exact hiff.mp hall
  · intro hsettled
    exact ⟨_, rfl, hiff.mpr hsettled⟩

/-- The interest list is as asked behind every event, without an exception, if
and only if every call about descriptor zero leaves it settled. -/
theorem run_mirrors_iff (hkept : KeptOpen events)
    (hforeign : ∀ event ∈ events, own.interest event.fd = none) :
    Throughout (fun earlier event => Mirrored own (earlier ++ [event])) events ↔
      Throughout ZeroSettled events := by
  have hlegal : Legal own events := ⟨hkept, hforeign⟩
  refine throughout_iff ?_ ?_ ?_ hlegal
  · exact ⟨⟨own, fun _ => none⟩, rfl, fun _ => rfl⟩
  · exact fun _ _ h => h.split.1
  · exact fun _ _ h => mirrored_concat_iff h

end Runs

/-- A timer on descriptor three is watched while socket five changes its request. -/
theorem run_mirrors_changed :
    Throughout (fun earlier event => Mirrored ⟨fun fd => if fd = 3 then some ⟨true, false⟩ else none⟩
      (earlier ++ [event])) [.call 0 5 .pollInOut, .call 0 5 .pollIn, .call 0 5 .pollRemove, .close 5] := by
  refine (run_mirrors_iff ?_ ?_).mpr ?_
  · change KeptOpen ([] ++ [_] ++ [_] ++ [_] ++ [_])
    simp only [KeptOpen, throughout_concat]
    refine ⟨⟨⟨⟨throughout_nil, call_keeps _ _ _ _⟩, call_keeps _ _ _ _⟩, call_keeps _ _ _ _⟩, ?_⟩
    intro s hclose
    cases hclose
    rfl
  · decide
  · change Throughout ZeroSettled ([] ++ [_] ++ [_] ++ [_] ++ [_])
    simp only [throughout_concat]
    have hfive (p : Prop) (hs : 5 = 0) : p := absurd hs (by decide)
    exact ⟨⟨⟨⟨throughout_nil, hfive _⟩, hfive _⟩, hfive _⟩, trivial⟩

/-- A socket on descriptor zero still waits to read only when libcurl asks for both. -/
theorem zero_keeps_old_mask : ¬ ∀ own events, KeptOpen events →
    (∀ event ∈ events, own.interest event.fd = none) →
    Throughout (fun earlier event => Mirrored own (earlier ++ [event])) events := by
  intro hall
  have hkept : KeptOpen ([] ++ [.call 0 0 .pollIn] ++ [.call 0 0 .pollInOut]) := by
    simp only [KeptOpen, throughout_concat]
    exact ⟨⟨throughout_nil, call_keeps _ _ _ _⟩, call_keeps _ _ _ _⟩
  have hmirrors := hall ⟨fun _ => none⟩ _ hkept (fun _ _ => rfl)
  obtain ⟨g, hrun, hlist⟩ := ((throughout_concat _ _).mp hmirrors).2
  cases hrun
  exact absurd (hlist 0) (by decide)

end CurlHttpfs.Sockets.Linux
