import CurlHttpfs.Sockets.EpollMirror

/-!
# `SocketCallback` on macOS

A call adds the filters of its action and leaves the others registered. A
removal deletes both filters in one change list, which ends at the read filter
when that is absent. So the queue follows libcurl only while requests grow and
no socket is removed that waits to write only.
-/

namespace CurlHttpfs.Sockets.Apple

open Curl Kernel

/-- The filters of `kq_fd`, and the pointers assigned to the sockets. -/
structure GlobalInfo where
  /-- The read and write filters of `kq_fd`. -/
  kq : Kqueue
  /-- The object that libcurl passes for a socket. -/
  assigned : Nat → Option SockInfo

/-- `RemoveSockInfo`. -/
def removeSockInfo (f : Option SockInfo) (kq : Kqueue) : Kqueue :=
  match f with
  | none => kq
  | some f =>
    if f.sockfd ≠ 0 then kq.kevent [⟨f.sockfd, .read, .delete⟩, ⟨f.sockfd, .write, .delete⟩] else kq

/-- The change list of `SetSockInfo`. -/
def changesOf (s : Nat) (act : Poll) : List Change :=
  (if act.hasIn = true then [⟨s, .read, .add⟩] else []) ++
    if act.hasOut = true then [⟨s, .write, .add⟩] else []

/-- `SetSockInfo` and the object as it is afterwards. Its earlier content is not looked at. -/
def setSockInfo (_f : SockInfo) (s : Nat) (e : CURL) (act : Poll) (kq : Kqueue) : SockInfo × Kqueue :=
  (⟨s, some e, some act⟩, if 0 < (changesOf s act).length then kq.kevent (changesOf s act) else kq)

/-- `AddSockInfo`. -/
def addSockInfo (s : Nat) (easy : CURL) (action : Poll) (kq : Kqueue) : SockInfo × Kqueue :=
  setSockInfo {} s easy action kq

/-- `SocketCallback`, which returns the object that libcurl passes next. -/
def socketCallback (e : CURL) (s : Nat) (what : Poll) (sockp : Option SockInfo) (kq : Kqueue) :
    Option SockInfo × Kqueue :=
  if what = .pollRemove then (none, removeSockInfo sockp kq)
  else
    match sockp with
    | none =>
      let (f, kq) := addSockInfo s e what kq
      (some f, kq)
    | some f =>
      let (f, kq) := setSockInfo f s e what kq
      (some f, kq)

/-- One event. -/
def step (g : GlobalInfo) : Event → GlobalInfo
  | .call easy s what =>
    let (f, kq) := socketCallback easy s what (g.assigned s) g.kq
    ⟨kq, Function.update g.assigned s f⟩
  | .close s => { g with kq := g.kq.close s }

/-- Events from a queue with the timer and the user event only. -/
def run (events : List Event) : GlobalInfo := events.foldl step ⟨⟨fun _ _ => false⟩, fun _ => none⟩

/-- Whether libcurl waits for the events of a filter. -/
def wanted (events : List Event) (fd : Nat) (f : Filter) : Bool :=
  (requested events fd).any fun what => what.has f

/-- The registered filters are those that libcurl waits for. -/
def Mirrors (events : List Event) (kq : Kqueue) : Prop := ∀ fd f, kq.registered fd f = wanted events fd f

/-- The run of these events ends with the filters that libcurl waits for. -/
def Mirrored (events : List Event) : Prop := Mirrors events (run events).kq

/-- A call gives up no filter, and a removal is one of an unknown socket, or of
a socket other than zero that does not wait to write only. -/
def Settled (earlier : List Event) : Event → Prop
  | .call _ s what =>
    if what = .pollRemove then
      requested earlier s = none ∨ s ≠ 0 ∧ requested earlier s ≠ some .pollOut
    else ∀ f, wanted earlier s f = true → what.has f = true
  | .close _ => True

/-- Both kernels watch the sockets for the same events. -/
def Agrees (own epoll : Epoll) (kq : Kqueue) : Prop :=
  ∀ fd, own.interest fd = none → ∀ f, (epoll.interest fd).any (fun mask => mask.has f) = kq.registered fd f

/-- The same events throw nothing on Linux and end with the same events watched. -/
def Agreed (own : Epoll) (events : List Event) : Prop :=
  ∃ g, Linux.run own events = .ok g ∧ Agrees own g.epoll (run events).kq

/-! ## One call -/

section Calls

variable (kq : Kqueue) (s : Nat)

/-- A call adds the filters of its action. -/
theorem setSockInfo_registered (f : SockInfo) (easy : CURL) (act : Poll) :
    (setSockInfo f s easy act kq).2.registered =
      Function.update kq.registered s fun f => kq.registered s f || act.has f := by
  funext fd filter
  cases act <;> cases filter <;> by_cases hfd : fd = s <;>
    simp [setSockInfo, changesOf, Poll.hasIn, Poll.hasOut, Kqueue.kevent, Kqueue.change, Poll.has, hfd]

/-- Two deletes clear a socket that has its read filter, and fail otherwise. -/
theorem deletes_registered :
    (kq.kevent [⟨s, .read, .delete⟩, ⟨s, .write, .delete⟩]).registered =
      Function.update kq.registered s fun f => kq.registered s f && !kq.registered s .read := by
  funext fd filter
  cases hread : kq.registered s .read <;> cases hwrite : kq.registered s .write <;> cases filter <;>
    by_cases hfd : fd = s <;> simp [Kqueue.kevent, Kqueue.change, hfd, hread, hwrite]

/-- The filters of a socket behind a call, from its filters and its last request. -/
def filtersAfter (s : Nat) (last : Option Poll) (old : Filter → Bool) (what : Poll) (f : Filter) : Bool :=
  if what = .pollRemove then
    if s = 0 ∨ last = none then old f else old f && !old .read
  else old f || what.has f

variable {last : Option Poll} {sockp : Option SockInfo}

/-- The callback with the object of the last request. -/
theorem socketCallback_registered (easy : CURL) (what : Poll)
    (hobject : sockp.map SockInfo.sockfd = last.map fun _ => s) :
    (socketCallback easy s what sockp kq).2.registered =
      Function.update kq.registered s (filtersAfter s last (kq.registered s) what) := by
  unfold socketCallback filtersAfter
  by_cases hwhat : what = .pollRemove
  · simp only [if_pos hwhat]
    cases sockp with
    | none =>
      have hlast : last = none := Option.map_eq_none_iff.mp hobject.symm
      simp only [hlast, or_true, if_true, Function.update_eq_self]
      rfl
    | some f =>
      obtain ⟨hfd, before, rfl⟩ := object_last hobject
      simp only [removeSockInfo, hfd]
      by_cases hs : s = 0
      · simp only [hs, ne_eq, not_true_eq_false, if_false, true_or, if_true, Function.update_eq_self]
      · simp only [hs, ne_eq, not_false_eq_true, if_true, reduceCtorEq, or_self, if_false]
        exact deletes_registered kq s
  · simp only [if_neg hwhat]
    cases sockp with
    | none => exact setSockInfo_registered kq s {} easy what
    | some f => exact setSockInfo_registered kq s f easy what

/-- The callback's object denotes the socket as long as a request stands. -/
theorem socketCallback_object (easy : CURL) (what : Poll) :
    ((socketCallback easy s what sockp kq).1).map SockInfo.sockfd = what.standing.map fun _ => s := by
  unfold socketCallback
  by_cases hwhat : what = .pollRemove
  · rw [if_pos hwhat, hwhat]
    rfl
  · rw [if_neg hwhat, Poll.standing_of_ne hwhat]
    cases sockp with
    | none => rfl
    | some f => rfl

end Calls

/-! ## Runs -/

section Runs

variable {own : Epoll} {events : List Event} {event : Event}

theorem run_concat (events : List Event) (event : Event) :
    run (events ++ [event]) = step (run events) event := by
  simp only [run, List.foldl_append, List.foldl_cons, List.foldl_nil]

/-- Sockets with a request have an object with their descriptor. -/
theorem run_object (events : List Event) (fd : Nat) :
    ((run events).assigned fd).map SockInfo.sockfd = (requested events fd).map fun _ => fd := by
  induction events using List.reverseRecOn with
  | nil => rfl
  | append_singleton events event ih =>
    rw [run_concat, requested_concat]
    cases event with
    | call easy s what =>
      rw [noteEvent]
      by_cases hfd : fd = s
      · subst hfd
        rw [Function.update_self]
        exact (congrArg _ (Function.update_self _ _ _)).trans (socketCallback_object _ fd easy what)
      · rw [Function.update_of_ne hfd, ← ih]
        exact congrArg _ (Function.update_of_ne hfd _ _)
    | close s => exact ih

/-- A call changes the filters of its socket as told. -/
theorem run_call (easy : CURL) (s : Nat) (what : Poll) :
    (run (events ++ [.call easy s what])).kq.registered = Function.update (run events).kq.registered s
      (filtersAfter s (requested events s) ((run events).kq.registered s) what) := by
  rw [run_concat]
  exact socketCallback_registered _ s easy what (run_object events s)

theorem run_close (s : Nat) : (run (events ++ [.close s])).kq.registered =
    Function.update (run events).kq.registered s fun _ => false := by
  rw [run_concat]
  rfl

theorem wanted_call (easy : CURL) (s : Nat) (what : Poll) (f : Filter) :
    wanted (events ++ [.call easy s what]) s f = what.standing.any fun what => what.has f := by
  rw [wanted, requested_concat, noteEvent, Function.update_self]

/-- An event changes what is wanted of its own descriptor only. -/
theorem wanted_other {fd : Nat} (h : fd ≠ event.fd) (f : Filter) :
    wanted (events ++ [event]) fd f = wanted events fd f := by
  rw [wanted, wanted, requested_concat, noteEvent_other _ h]

/-- From the wanted filters a call leads to the wanted filters exactly when it is settled. -/
theorem filtersAfter_iff (easy : CURL) (s : Nat) (what : Poll) :
    (∀ f, filtersAfter s (requested events s) (wanted events s) what f =
      what.standing.any fun what => what.has f) ↔ Settled events (.call easy s what) := by
  by_cases hwhat : what = .pollRemove
  · subst hwhat
    change (∀ f, (if s = 0 ∨ requested events s = none then wanted events s f
      else wanted events s f && !wanted events s .read) = false) ↔
        requested events s = none ∨ s ≠ 0 ∧ requested events s ≠ some .pollOut
    simp only [wanted]
    have hne := requested_ne_remove events s
    cases hlast : requested events s with
    | none => exact iff_of_true (fun f => by rw [if_pos (Or.inr rfl)]; rfl) (Or.inl rfl)
    | some before =>
      have hbefore : before ≠ .pollRemove := fun he => hne (he ▸ hlast)
      by_cases hs : s = 0
      · obtain ⟨f, hf⟩ := Poll.exists_has hbefore
        refine iff_of_false (fun hall => ?_) (fun h => h.elim (Option.some_ne_none _) fun h => h.1 hs)
        have hlost := hall f
        rw [if_pos (Or.inl hs), Option.any_some, hf] at hlost
        cases hlost
      · simp only [hs, reduceCtorEq, or_self, if_false, false_or, ne_eq, not_false_eq_true, true_and,
          Option.some.injEq]
        cases before with
        | pollIn => exact iff_of_true (fun f => by cases f <;> rfl) (by decide)
        | pollOut => exact iff_of_false (fun hall => absurd (hall .write) (by decide)) (not_not_intro rfl)
        | pollInOut => exact iff_of_true (fun f => by cases f <;> rfl) (by decide)
        | pollRemove => exact absurd rfl hbefore
  · simp only [filtersAfter, Settled, if_neg hwhat, Poll.standing_of_ne hwhat, Option.any_some]
    exact forall_congr' fun f => Bool.or_eq_right_iff_imp

/-- Behind events whose filters are those wanted, one more event leaves them so
exactly when it is settled. -/
theorem mirrored_concat_iff (hopen : ∀ s, event = .close s → requested events s = none)
    (hbefore : Mirrored events) : Mirrored (events ++ [event]) ↔ Settled events event := by
  have hlist (fd : Nat) : (run events).kq.registered fd = wanted events fd := funext (hbefore fd)
  cases event with
  | call easy s what =>
    rw [← filtersAfter_iff easy s what, Mirrored, Mirrors, run_call, hlist]
    constructor
    · intro hall f
      have hafter := hall s f
      rw [Function.update_self, wanted_call] at hafter
      exact hafter
    · intro hat fd f
      by_cases hfd : fd = s
      · rw [hfd, Function.update_self, wanted_call]
        exact hat f
      · rw [Function.update_of_ne hfd, wanted_other hfd]
        exact hbefore fd f
  | close s =>
    refine iff_of_true (fun fd f => ?_) trivial
    rw [run_close]
    by_cases hfd : fd = s
    · rw [hfd, Function.update_self, wanted, requested_concat, noteEvent, hopen s rfl]
      rfl
    · rw [Function.update_of_ne hfd, wanted_other hfd]
      exact hbefore fd f

/-- An entry made for some action is determined by the events it stands for. -/
theorem entry_determined {entry : Option EpollMask} {last : Option Poll}
    (horigin : ∀ mask, entry = some mask → ∃ what, what ≠ Poll.pollRemove ∧ mask = what.kind)
    (hlast : last ≠ some .pollRemove)
    (h : ∀ f, entry.any (fun mask => mask.has f) = last.any fun what => what.has f) :
    entry = last.map Poll.kind := by
  cases entry with
  | none =>
    cases last with
    | none => rfl
    | some before =>
      obtain ⟨f, hf⟩ := Poll.exists_has fun he => hlast (congrArg some he)
      exact absurd ((h f).trans hf) Bool.false_ne_true
  | some mask =>
    obtain ⟨what, hwhat, rfl⟩ := horigin mask rfl
    cases last with
    | none =>
      obtain ⟨f, hf⟩ := Poll.exists_has hwhat
      exact absurd ((h f).symm.trans ((what.kind_has f).trans hf)) Bool.false_ne_true
    | some before => exact congrArg some (congrArg₂ EpollMask.mk (h .read) (h .write))

/-- A queue that is as wanted agrees with exactly those interest lists that are as asked. -/
theorem agrees_iff_mirrors {g : Linux.GlobalInfo} {kq : Kqueue} (h : Linux.Follows own events g)
    (hmirrors : Mirrors events kq) : Agrees own g.epoll kq ↔ Linux.Mirrors own events g.epoll := by
  constructor
  · intro hagrees fd
    by_cases hfd : fd ≠ 0 ∨ own.interest fd ≠ none
    · exact h.entry fd hfd
    · obtain ⟨hzero, hown⟩ := not_or.mp hfd
      have hown : own.interest fd = none := not_not.mp hown
      have hsame (f : Filter) : (g.epoll.interest fd).any (fun mask => mask.has f) =
          (requested events fd).any fun what => what.has f :=
        (hagrees fd hown f).trans (hmirrors fd f)
      rw [Linux.asked, hown, Option.or_none]
      refine entry_determined (fun mask hmask => (h.origin fd mask hmask).resolve_left ?_)
        (requested_ne_remove events fd) hsame
      rw [hown]
      exact (Option.some_ne_none _).symm
  · intro hall fd hown f
    rw [hmirrors, hall fd, Linux.asked, hown, Option.or_none, wanted, Option.any_map]
    exact congrArg (Option.any · _) (funext fun what => what.kind_has f)

/-- Behind a legal run with a queue as wanted, the kernels agree exactly when
the interest list is as asked. -/
theorem agreed_iff (h : Linux.Legal own events) (hmirrored : Mirrored events) :
    Agreed own events ↔ Linux.Mirrored own events := by
  obtain ⟨g, hrun, hfollows⟩ := Linux.run_follows h
  have hiff := agrees_iff_mirrors hfollows hmirrored
  rw [Agreed, Linux.Mirrored, hrun]
  constructor
  · rintro ⟨_, he, hagrees⟩
    cases he
    exact ⟨g, rfl, hiff.mp hagrees⟩
  · rintro ⟨_, he, hlist⟩
    cases he
    exact ⟨g, rfl, hiff.mpr hlist⟩

/-- Behind every event the registered filters are those that libcurl waits for,
and the same as on Linux, if and only if no call gives up a filter, no removal
is of a socket that waits to write only or has descriptor zero, and for the
agreement no call about descriptor zero changes its request. -/
theorem run_registers_iff (hkept : KeptOpen events)
    (hforeign : ∀ event ∈ events, own.interest event.fd = none) :
    (Throughout (fun earlier event => Mirrored (earlier ++ [event])) events ↔ Throughout Settled events) ∧
      (Throughout (fun earlier event => Mirrored (earlier ++ [event]) ∧ Agreed own (earlier ++ [event])) events ↔
        Throughout (fun earlier event => Settled earlier event ∧ Linux.ZeroSettled earlier event) events) := by
  have hlegal : Linux.Legal own events := ⟨hkept, hforeign⟩
  constructor
  · refine throughout_iff ?_ ?_ ?_ hlegal
    · exact fun _ _ => rfl
    · exact fun _ _ h => h.split.1
    · exact fun _ _ h hbefore => mirrored_concat_iff h.split.2.2 hbefore
  · have hstart : Agreed own [] := ⟨⟨own, fun _ => none⟩, rfl, fun fd hown f => by rw [hown]; rfl⟩
    refine @throughout_iff _ _ _ (fun events => Mirrored events ∧ Agreed own events) ?_ ?_ ?_ _ hlegal
    · exact ⟨fun _ _ => rfl, hstart⟩
    · exact fun _ _ h => h.split.1
    · rintro events event h ⟨hmirrored, hagreed⟩
      have hbefore := (agreed_iff h.split.1 hmirrored).mp hagreed
      rw [← mirrored_concat_iff h.split.2.2 hmirrored, ← Linux.mirrored_concat_iff h hbefore]
      exact and_congr_right fun hafter => agreed_iff h hafter

end Runs

/-- A socket that waits to read, then also to write, is removed and closed. -/
theorem run_registers_grown :
    Throughout (fun earlier event =>
        Mirrored (earlier ++ [event]) ∧ Agreed ⟨fun _ => none⟩ (earlier ++ [event]))
      [.call 0 5 .pollIn, .call 0 5 .pollInOut, .call 0 5 .pollRemove, .close 5] := by
  refine (run_registers_iff ?_ ?_).2.mpr ?_
  · change KeptOpen ([] ++ [_] ++ [_] ++ [_] ++ [_])
    simp only [KeptOpen, throughout_concat]
    refine ⟨⟨⟨⟨throughout_nil, call_keeps _ _ _ _⟩, call_keeps _ _ _ _⟩, call_keeps _ _ _ _⟩, ?_⟩
    intro s hclose
    cases hclose
    rfl
  · exact fun _ _ => rfl
  · change Throughout _ ([] ++ [_] ++ [_] ++ [_] ++ [_])
    simp only [throughout_concat]
    have hfive (p : Prop) (hs : 5 = 0) : p := absurd hs (by decide)
    refine ⟨⟨⟨⟨throughout_nil, ?_, hfive _⟩, ?_, hfive _⟩, ?_, hfive _⟩, trivial, trivial⟩
    · exact fun f hf => absurd hf Bool.false_ne_true
    · exact fun f hf => by cases f <;> rfl
    · exact Or.inr (by decide)

/-- A socket that waited for both keeps its write filter when libcurl waits to read only. -/
theorem write_filter_left : ¬ ∀ events, KeptOpen events →
    Throughout (fun earlier event => Mirrored (earlier ++ [event])) events := by
  intro hall
  have hkept : KeptOpen ([] ++ [.call 0 5 .pollInOut] ++ [.call 0 5 .pollIn]) := by
    simp only [KeptOpen, throughout_concat]
    exact ⟨⟨throughout_nil, call_keeps _ _ _ _⟩, call_keeps _ _ _ _⟩
  have hmirrors := ((throughout_concat _ _).mp (hall _ hkept)).2
  exact absurd (hmirrors 5 .write) (by decide)

end CurlHttpfs.Sockets.Apple
