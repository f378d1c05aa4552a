import CurlHttpfs.Lib.Heap
import CurlHttpfs.Sockets.KqueueMirror

/-!
# The objects of the sockets

`AddSockInfo` allocates a `SockInfo` and hands its address to libcurl, which
passes it back with every call about the socket until `RemoveSockInfo` deletes
the object. The models of the two kernels pass the object itself instead; here
they are what the addresses amount to.
-/

namespace CurlHttpfs.Sockets.Objects

open Curl Kernel

/-- What the two builds do at their kernels. -/
structure Build (κ : Type) where
  /-- `RemoveSockInfo` before the object is deleted. -/
  unregister : SockInfo → κ → Except CtlError κ
  /-- `SetSockInfo`, from the object as it was. -/
  register : SockInfo → Nat → Poll → κ → Except CtlError κ
  /-- The kernel when a descriptor is closed. -/
  close : Nat → κ → κ

/-- The Linux build. -/
def linux : Build Epoll where
  unregister f epoll := if f.sockfd ≠ 0 then epoll.del f.sockfd else .ok epoll
  register f s act epoll := do
    let epoll ← if f.sockfd ≠ 0 then epoll.del f.sockfd else .ok epoll
    return epoll.tryAdd s act.kind
  close s epoll := epoll.close s

/-- The macOS build. -/
def macos : Build Kqueue where
  unregister f kq := .ok <|
    if f.sockfd ≠ 0 then kq.kevent [⟨f.sockfd, .read, .delete⟩, ⟨f.sockfd, .write, .delete⟩] else kq
  register _ s act kq := .ok <|
    if 0 < (Apple.changesOf s act).length then kq.kevent (Apple.changesOf s act) else kq
  close s kq := kq.close s

/-- How a call goes wrong. -/
inductive Mishap where
  /-- An exception is thrown. -/
  | thrown (e : CtlError)
  /-- An object is used or deleted that does not exist any more. -/
  | dangling
  deriving DecidableEq

/-- The kernel, the objects and what `curl_multi_assign` was given for each socket. -/
structure GlobalInfo (κ : Type) where
  /-- The kernel's side. -/
  kernel : κ
  /-- The objects. -/
  heap : Heap SockInfo
  /-- The address libcurl passes for a socket. -/
  assigned : Nat → Option Nat

/-- An error of the kernel becomes an exception. -/
def thrown {α : Type} : Except CtlError α → Except Mishap α
  | .ok a => .ok a
  | .error e => .error (.thrown e)

/-- An object that must exist. -/
def alive {α : Type} : Option α → Except Mishap α
  | some a => .ok a
  | none => .error .dangling

variable {κ : Type} (build : Build κ)

/-- `RemoveSockInfo`. -/
def removeSockInfo (f : Option Nat) (g : GlobalInfo κ) : Except Mishap (GlobalInfo κ) :=
  match f with
  | none => .ok g
  | some p => do
    let object ← alive (g.heap.cell p)
    let kernel ← thrown (build.unregister object g.kernel)
    let heap ← alive (g.heap.free p)
    return { g with kernel := kernel, heap := heap }

/-- `SetSockInfo`. -/
def setSockInfo (p : Nat) (s : Nat) (e : CURL) (act : Poll) (g : GlobalInfo κ) :
    Except Mishap (GlobalInfo κ) := do
  let object ← alive (g.heap.cell p)
  let kernel ← thrown (build.register object s act g.kernel)
  let heap ← alive (g.heap.write p ⟨s, some e, some act⟩)
  return { g with kernel := kernel, heap := heap }

/-- `AddSockInfo`. -/
def addSockInfo (s : Nat) (easy : CURL) (action : Poll) (g : GlobalInfo κ) : Except Mishap (GlobalInfo κ) := do
  let fdp := g.heap.next
  let g ← setSockInfo build fdp s easy action { g with heap := g.heap.alloc {} }
  return { g with assigned := Function.update g.assigned s (some fdp) }

/-- `SocketCallback`. -/
def socketCallback (e : CURL) (s : Nat) (what : Poll) (sockp : Option Nat) (g : GlobalInfo κ) :
    Except Mishap (GlobalInfo κ) :=
  if what = .pollRemove then removeSockInfo build sockp g
  else
    match sockp with
    | none => addSockInfo build s e what g
    | some p => setSockInfo build p s e what g

/-- One event. libcurl forgets the address behind a removal. -/
def step (g : GlobalInfo κ) : Event → Except Mishap (GlobalInfo κ)
  | .call easy s what => do
    let g ← socketCallback build easy s what (g.assigned s) g
    return if what = .pollRemove then { g with assigned := Function.update g.assigned s none } else g
  | .close s => return { g with kernel := build.close s g.kernel }

/-- Events from a kernel without sockets. -/
def run (kernel : κ) (events : List Event) : Except Mishap (GlobalInfo κ) :=
  events.foldlM (step build) ⟨kernel, .empty, fun _ => none⟩

/-! ## One call -/

/-- The object behind a call and the kernel, with the object itself passed. -/
def effect (e : CURL) (s : Nat) (what : Poll) (sockp : Option SockInfo) (kernel : κ) :
    Except CtlError (Option SockInfo × κ) :=
  if what = .pollRemove then
    match sockp with
    | none => .ok (none, kernel)
    | some f => (build.unregister f kernel).map fun kernel => (none, kernel)
  else (build.register (sockp.getD {}) s what kernel).map fun kernel => (some ⟨s, some e, some what⟩, kernel)

/-- The objects of the sockets. -/
def GlobalInfo.objects (g : GlobalInfo κ) : Nat → Option SockInfo := g.heap.contents g.assigned

/-- Every object is that of one socket. -/
def GlobalInfo.Owned (g : GlobalInfo κ) : Prop := g.heap.Owns g.assigned

variable {build}

/-- What a call comes to: the error that the kernel reports, or the objects and
the kernel behind it, still with one socket for each object. -/
def Comes (outcome : Except Mishap (GlobalInfo κ)) (g : GlobalInfo κ) (s : Nat) :
    Except CtlError (Option SockInfo × κ) → Prop
  | .error e => outcome = .error (.thrown e)
  | .ok (f, kernel) => ∃ after, outcome = .ok after ∧ after.kernel = kernel ∧ after.Owned ∧
      after.objects = Function.update g.objects s f

variable {g : GlobalInfo κ} {s : Nat}

theorem objects_none (hs : g.assigned s = none) : g.objects s = none := Heap.contents_none hs

theorem objects_some {p : Nat} (hs : g.assigned s = some p) : g.objects s = g.heap.cell p := by
  rw [GlobalInfo.objects, Heap.contents, hs, Option.bind_some]

/-- A first call about a socket makes its object. -/
theorem step_add (h : g.Owned) (easy : CURL) {what : Poll} (hwhat : what ≠ .pollRemove) (hs : g.assigned s = none) :
    Comes (step build g (.call easy s what)) g s (effect build easy s what none g.kernel) := by
  have hstep : step build g (.call easy s what) = addSockInfo build s easy what g := by
    simp only [step, socketCallback, if_neg hwhat, hs, bind_pure]
  rw [hstep, effect, if_neg hwhat, Option.getD_none]
  simp only [addSockInfo, setSockInfo, Heap.alloc_cell_self, alive, Heap.write_alloc, bind, Except.bind]
  cases build.register {} s what g.kernel with
  | error e => exact rfl
  | ok kernel =>
    obtain ⟨howned, hobjects⟩ := Heap.Owns.alloc h hs ⟨s, some easy, some what⟩
    exact ⟨⟨kernel, _, _⟩, rfl, rfl, howned, hobjects⟩

/-- A later call writes it. -/
theorem step_set (h : g.Owned) (easy : CURL) {what : Poll} (hwhat : what ≠ .pollRemove) {p : Nat}
    (hs : g.assigned s = some p) {f : SockInfo} (hf : g.heap.cell p = some f) :
    Comes (step build g (.call easy s what)) g s (effect build easy s what (some f) g.kernel) := by
  have hstep : step build g (.call easy s what) = setSockInfo build p s easy what g := by
    simp only [step, socketCallback, if_neg hwhat, hs, bind_pure]
  obtain ⟨heap, hwrite, howned, hobjects⟩ := Heap.Owns.write h hs ⟨s, some easy, some what⟩
  rw [hstep, effect, if_neg hwhat, Option.getD_some]
  simp only [setSockInfo, hf, alive, hwrite, bind, Except.bind]
  cases build.register f s what g.kernel with
  | error e => exact rfl
  | ok kernel => exact ⟨⟨kernel, _, _⟩, rfl, rfl, howned, hobjects⟩

/-- A removal of a socket without an object does nothing. -/
theorem step_forget (h : g.Owned) (easy : CURL) (hs : g.assigned s = none) :
    Comes (step build g (.call easy s .pollRemove)) g s (effect build easy s .pollRemove none g.kernel) := by
  have hsame : Function.update g.assigned s none = g.assigned := by
    rw [← hs, Function.update_eq_self]
  have hstep : step build g (.call easy s .pollRemove) = .ok g := by
    simp only [step, socketCallback, if_pos, hs, removeSockInfo]
    change Except.ok { g with assigned := Function.update g.assigned s none } = _
    rw [hsame]
  refine ⟨g, hstep, rfl, h, ?_⟩
  rw [← objects_none hs, Function.update_eq_self]

/-- Another one deletes the object. -/
theorem step_remove (h : g.Owned) (easy : CURL) {p : Nat} (hs : g.assigned s = some p) {f : SockInfo}
    (hf : g.heap.cell p = some f) :
    Comes (step build g (.call easy s .pollRemove)) g s (effect build easy s .pollRemove (some f) g.kernel) := by
  obtain ⟨heap, hfree, howned, hobjects⟩ := Heap.Owns.free h hs
  simp only [step, socketCallback, if_pos, hs, removeSockInfo, hf, alive, hfree, effect, bind, Except.bind]
  cases build.unregister f g.kernel with
  | error e => exact rfl
  | ok kernel => exact ⟨⟨kernel, _, _⟩, rfl, rfl, howned, hobjects⟩

/-- A callback does at the address what it does with the object. -/
theorem step_call (h : g.Owned) (easy : CURL) (s : Nat) (what : Poll) :
    Comes (step build g (.call easy s what)) g s (effect build easy s what (g.objects s) g.kernel) := by
  cases hs : g.assigned s with
  | none =>
    rw [objects_none hs]
    by_cases hwhat : what = .pollRemove
    · subst hwhat
      exact step_forget h easy hs
    · exact step_add h easy hwhat hs
  | some p =>
    obtain ⟨f, hf⟩ := Option.ne_none_iff_exists'.mp (h.live s p hs)
    rw [objects_some hs, hf]
    by_cases hwhat : what = .pollRemove
    · subst hwhat
      exact step_remove h easy hs hf
    · exact step_set h easy hwhat hs hf

/-! ## Runs -/

/-- The kernel and the objects of the sockets. -/
structure Values (κ : Type) where
  /-- The kernel's side. -/
  kernel : κ
  /-- The object that libcurl passes for a socket. -/
  assigned : Nat → Option SockInfo

/-- One event with the objects themselves passed. -/
def Values.step (build : Build κ) (v : Values κ) : Event → Except CtlError (Values κ)
  | .call easy s what =>
    (effect build easy s what (v.assigned s) v.kernel).map fun (f, kernel) =>
      ⟨kernel, Function.update v.assigned s f⟩
  | .close s => .ok { v with kernel := build.close s v.kernel }

/-- Events from a kernel without sockets, with the objects themselves passed. -/
def Values.run (build : Build κ) (kernel : κ) (events : List Event) : Except CtlError (Values κ) :=
  events.foldlM (Values.step build) ⟨kernel, fun _ => none⟩

/-- What the addresses amount to. -/
def GlobalInfo.values (g : GlobalInfo κ) : Values κ := ⟨g.kernel, g.objects⟩

/-- What a callback keeps in its object. -/
def SockInfo.noted (f : SockInfo) : Nat × Option Poll := (f.sockfd, f.action)

/-- Behind these events the addresses amount to these values. Each object is
that of one socket with a request, and notes the request. -/
structure Faithful (events : List Event) (outcome : Except Mishap (GlobalInfo κ))
    (values : Except CtlError (Values κ)) : Prop where
  /-- The values, or the error of the kernel. -/
  same : outcome.map GlobalInfo.values = thrown values
  /-- Each object has one socket. -/
  owned : ∀ g, outcome = .ok g → g.Owned
  /-- The sockets with an object are those with a request. -/
  noted : ∀ g, outcome = .ok g → ∀ s,
    (g.objects s).map SockInfo.noted = (requested events s).map fun what => (s, some what)

theorem run_concat (kernel : κ) (events : List Event) (event : Event) :
    run build kernel (events ++ [event]) = run build kernel events >>= fun g => step build g event := by
  simp only [run, List.foldlM_append, List.foldlM_cons, List.foldlM_nil, bind_pure]

theorem Values.run_concat (kernel : κ) (events : List Event) (event : Event) :
    Values.run build kernel (events ++ [event]) =
      Values.run build kernel events >>= fun v => Values.step build v event := by
  simp only [Values.run, List.foldlM_append, List.foldlM_cons, List.foldlM_nil, bind_pure]

variable {events : List Event} {outcome : Except Mishap (GlobalInfo κ)}

/-- A run that threw. -/
theorem faithful_error (events : List Event) (e : CtlError) :
    Faithful events (.error (.thrown e) : Except Mishap (GlobalInfo κ)) (.error e) where
  same := rfl
  owned g hg := by cases hg
  noted g hg := by cases hg

/-- A run that has not thrown has a state with these values. -/
theorem Faithful.ok {v : Values κ} (h : Faithful events outcome (.ok v)) :
    ∃ g, outcome = .ok g ∧ g.values = v ∧ g.Owned ∧
      ∀ s, (g.objects s).map SockInfo.noted = (requested events s).map fun what => (s, some what) := by
  cases outcome with
  | error e => cases h.same
  | ok g => exact ⟨g, rfl, Except.ok.inj h.same, h.owned g rfl, h.noted g rfl⟩

/-- An exception stays one. -/
theorem Faithful.error {e : CtlError} (h : Faithful events outcome (.error e)) :
    outcome = .error (.thrown e) := by
  cases outcome with
  | error m => exact congrArg _ (Except.error.inj h.same)
  | ok g => cases h.same

/-- The object behind a call notes the action. -/
theorem effect_noted {easy : CURL} {what : Poll} {sockp f : Option SockInfo} {kernel after : κ}
    (h : effect build easy s what sockp kernel = .ok (f, after)) :
    f.map SockInfo.noted = what.standing.map fun what => (s, some what) := by
  unfold effect at h
  by_cases hwhat : what = .pollRemove
  · rw [if_pos hwhat] at h
    rw [hwhat]
    cases sockp with
    | none => cases h; rfl
    | some old =>
      change Except.map _ (build.unregister old kernel) = _ at h
      cases hkernel : build.unregister old kernel with
      | error e => rw [hkernel] at h; cases h
      | ok kernel => rw [hkernel] at h; cases h; rfl
  · rw [if_neg hwhat] at h
    rw [Poll.standing_of_ne hwhat]
    cases hkernel : build.register (sockp.getD {}) s what kernel with
    | error e => rw [hkernel] at h; cases h
    | ok kernel => rw [hkernel] at h; cases h; rfl

/-- One more event. -/
theorem Faithful.step {v : Values κ} (h : Faithful events outcome (.ok v)) (event : Event) :
    Faithful (events ++ [event]) (outcome >>= fun g => step build g event) (Values.step build v event) := by
  obtain ⟨g, rfl, rfl, howned, hnoted⟩ := h.ok
  cases event with
  | close s =>
    refine ⟨rfl, ?_, ?_⟩
    · intro after hafter
      cases hafter
      exact howned
    · intro after hafter fd
      cases hafter
      rw [requested_concat]
      exact hnoted fd
  | call easy s what =>
    have hcomes : Comes (Objects.step build g (.call easy s what)) g s _ := step_call howned easy s what
    change Faithful _ (Objects.step build g (.call easy s what))
      ((effect build easy s what (g.objects s) g.kernel).map _)
    cases heffect : effect build easy s what (g.objects s) g.kernel with
    | error e =>
      rw [heffect] at hcomes
      have hstep : Objects.step build g (.call easy s what) = .error (.thrown e) := hcomes
      rw [hstep]
      exact faithful_error _ e
    | ok pair =>
      obtain ⟨f, kernel⟩ := pair
      rw [heffect] at hcomes
      obtain ⟨after, hstep, hkernel, hafter, hobjects⟩ := hcomes
      rw [hstep]
      refine ⟨?_, ?_, ?_⟩
      · change Except.ok (⟨after.kernel, after.objects⟩ : Values κ) = _
        rw [hkernel, hobjects]
        rfl
      · intro last hlast
        cases hlast
        exact hafter
      · intro last hlast fd
        cases hlast
        rw [hobjects, requested_concat, noteEvent]
        by_cases hfd : fd = s
        · subst hfd
          rw [Function.update_self, Function.update_self]
          exact effect_noted heffect
        · rw [Function.update_of_ne hfd, Function.update_of_ne hfd]
          exact hnoted fd

/-- Whatever libcurl calls, the addresses amount to the objects themselves. -/
theorem run_faithful (build : Build κ) (kernel : κ) (events : List Event) :
    Faithful events (run build kernel events) (Values.run build kernel events) := by
  induction events using List.reverseRecOn with
  | nil =>
    refine ⟨rfl, ?_, ?_⟩
    · intro g hg
      cases hg
      exact Heap.owns_empty
    · intro g hg s
      cases hg
      rfl
  | append_singleton events event ih =>
    rw [run_concat, Values.run_concat]
    cases hvalues : Values.run build kernel events with
    | error e =>
      rw [hvalues] at ih
      rw [ih.error]
      exact faithful_error _ e
    | ok v =>
      rw [hvalues] at ih
      exact ih.step event

/-- No call uses or deletes an object that is gone. -/
theorem Faithful.alive {values : Except CtlError (Values κ)} (h : Faithful events outcome values) :
    outcome ≠ .error .dangling := by
  intro hdangling
  have hsame := h.same
  rw [hdangling] at hsame
  cases values with
  | error e => cases hsame
  | ok v => cases hsame

/-! ## The two builds -/

section Builds

theorem effect_linux (easy : CURL) (s : Nat) (what : Poll) (sockp : Option SockInfo) (epoll : Epoll) :
    effect linux easy s what sockp epoll = Linux.socketCallback easy s what sockp epoll := by
  unfold effect Linux.socketCallback
  by_cases hwhat : what = .pollRemove
  · rw [if_pos hwhat, if_pos hwhat]
    cases sockp with
    | none => rfl
    | some f =>
      change Except.map _ (linux.unregister f epoll) = linux.unregister f epoll >>= fun epoll => pure (none, epoll)
      cases linux.unregister f epoll <;> rfl
  · rw [if_neg hwhat, if_neg hwhat]
    cases sockp with
    | none => rfl
    | some f =>
      simp only [Option.getD_some, linux, Linux.setSockInfo]
      by_cases hf : f.sockfd ≠ 0
      · simp only [if_pos hf]
        cases epoll.del f.sockfd <;> rfl
      · simp only [if_neg hf]
        rfl

theorem effect_macos (easy : CURL) (s : Nat) (what : Poll) (sockp : Option SockInfo) (kq : Kqueue) :
    effect macos easy s what sockp kq = .ok (Apple.socketCallback easy s what sockp kq) := by
  unfold effect Apple.socketCallback
  by_cases hwhat : what = .pollRemove
  · rw [if_pos hwhat, if_pos hwhat]
    cases sockp with
    | none => rfl
    | some f => rfl
  · rw [if_neg hwhat, if_neg hwhat]
    cases sockp with
    | none => rfl
    | some f => rfl

/-- The state that the Linux model keeps. -/
def ofLinux (g : Linux.GlobalInfo) : Values Epoll := ⟨g.epoll, g.assigned⟩

/-- The state that the macOS model keeps. -/
def ofApple (g : Apple.GlobalInfo) : Values Kqueue := ⟨g.kq, g.assigned⟩

theorem values_linux (own : Epoll) (events : List Event) :
    Values.run linux own events = (Linux.run own events).map ofLinux := by
  induction events using List.reverseRecOn with
  | nil => rfl
  | append_singleton events event ih =>
    rw [Values.run_concat, Linux.run_concat, ih]
    cases Linux.run own events with
    | error e => rfl
    | ok g =>
      cases event with
      | close s => rfl
      | call easy s what =>
        change (effect linux easy s what (g.assigned s) g.epoll).map _ = Except.map ofLinux
          (Linux.socketCallback easy s what (g.assigned s) g.epoll >>= fun p =>
            pure ⟨p.2, Function.update g.assigned s p.1⟩)
        rw [effect_linux]
        cases Linux.socketCallback easy s what (g.assigned s) g.epoll <;> rfl

theorem values_macos (events : List Event) :
    Values.run macos ⟨fun _ _ => false⟩ events = .ok (ofApple (Apple.run events)) := by
  induction events using List.reverseRecOn with
  | nil => rfl
  | append_singleton events event ih =>
    rw [Values.run_concat, Apple.run_concat, ih]
    cases event with
    | close s => rfl
    | call easy s what =>
      change (effect macos easy s what _ _).map _ = _
      rw [effect_macos]
      rfl

/-- Whatever libcurl calls and closes, on both systems no call uses or deletes
an object that is gone, each object is that of one socket with a request, and
the addresses amount to the objects themselves. -/
theorem run_objects (own : Epoll) (events : List Event) :
    (run linux own events ≠ .error .dangling ∧
        Faithful events (run linux own events) ((Linux.run own events).map ofLinux)) ∧
      run macos ⟨fun _ _ => false⟩ events ≠ .error .dangling ∧
        Faithful events (run macos ⟨fun _ _ => false⟩ events) (.ok (ofApple (Apple.run events))) := by
  have hlinux := run_faithful linux own events
  have hmacos := run_faithful macos ⟨fun _ _ => false⟩ events
  rw [values_linux] at hlinux
  rw [values_macos] at hmacos
  exact ⟨⟨hlinux.alive, hlinux⟩, hmacos.alive, hmacos⟩

end Builds

end CurlHttpfs.Sockets.Objects
