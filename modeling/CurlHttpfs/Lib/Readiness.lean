import Mathlib.Logic.Function.Basic

/-!
# Interest lists of two kernels

`epoll` keeps one entry with a mask for each descriptor: adding a registered
descriptor and deleting an unregistered one fail and change nothing. `kqueue`
keeps filters one by one and takes a list of changes in one call: adding is
idempotent, deleting an absent filter fails, and without room for an error
report the first failure ends the processing of the list. Both forget a
descriptor that is closed.
-/

namespace CurlHttpfs.Kernel

/-! ## `epoll` -/

/-- The events of an entry. -/
structure EpollMask where
  /-- `EPOLLIN`. -/
  epollIn : Bool
  /-- `EPOLLOUT`. -/
  epollOut : Bool
  deriving DecidableEq

/-- Errors of `epoll_ctl`. -/
inductive CtlError where
  /-- The descriptor is registered already. -/
  | eexist
  /-- The descriptor is not registered. -/
  | enoent
  deriving DecidableEq

/-- An `epoll` instance with the entry of every registered descriptor. -/
structure Epoll where
  /-- The interest list. -/
  interest : Nat → Option EpollMask

/-- `EPOLL_CTL_ADD`. -/
def Epoll.add (e : Epoll) (fd : Nat) (mask : EpollMask) : Except CtlError Epoll :=
  match e.interest fd with
  | none => .ok ⟨Function.update e.interest fd (some mask)⟩
  | some _ => .error .eexist

/-- `EPOLL_CTL_ADD` with its result ignored. -/
def Epoll.tryAdd (e : Epoll) (fd : Nat) (mask : EpollMask) : Epoll :=
  match e.add fd mask with
  | .ok e => e
  | .error _ => e

/-- `EPOLL_CTL_DEL`. -/
def Epoll.del (e : Epoll) (fd : Nat) : Except CtlError Epoll :=
  match e.interest fd with
  | none => .error .enoent
  | some _ => .ok ⟨Function.update e.interest fd none⟩

/-- The descriptor is closed. -/
def Epoll.close (e : Epoll) (fd : Nat) : Epoll := ⟨Function.update e.interest fd none⟩

/-- An entry that is there already stays as it is. -/
theorem Epoll.tryAdd_eq (e : Epoll) (fd : Nat) (mask : EpollMask) :
    e.tryAdd fd mask = ⟨Function.update e.interest fd ((e.interest fd).or (some mask))⟩ := by
  unfold Epoll.tryAdd Epoll.add
  cases h : e.interest fd with
  | none => rfl
  | some old =>
    rw [Option.some_or, ← h, Function.update_eq_self]
    simp only [h]

theorem Epoll.del_present {e : Epoll} {fd : Nat} {old : EpollMask} (h : e.interest fd = some old) :
    e.del fd = .ok ⟨Function.update e.interest fd none⟩ := by
  simp only [Epoll.del, h]

/-! ## `kqueue` -/

/-- The filters of a descriptor. -/
inductive Filter where
  /-- `EVFILT_READ`. -/
  | read
  /-- `EVFILT_WRITE`. -/
  | write
  deriving DecidableEq

/-- Whether a mask includes the events of a filter. -/
def EpollMask.has (mask : EpollMask) : Filter → Bool
  | .read => mask.epollIn
  | .write => mask.epollOut

/-- What a change does to its filter. -/
inductive ChangeFlag where
  /-- `EV_ADD | EV_ENABLE`. -/
  | add
  /-- `EV_DELETE`. -/
  | delete
  deriving DecidableEq

/-- One entry of a change list. -/
structure Change where
  /-- The descriptor. -/
  ident : Nat
  /-- The filter. -/
  filter : Filter
  /-- What happens to it. -/
  flag : ChangeFlag

/-- A kernel queue with the registered filters of every descriptor. -/
structure Kqueue where
  /-- Which filters are registered. -/
  registered : Nat → Filter → Bool

/-- A registration is set or cleared. -/
def Kqueue.set (kq : Kqueue) (ident : Nat) (filter : Filter) (on : Bool) : Kqueue :=
  ⟨Function.update kq.registered ident (Function.update (kq.registered ident) filter on)⟩

/-- One change, which fails when it deletes an absent filter. -/
def Kqueue.change (kq : Kqueue) (c : Change) : Option Kqueue :=
  match c.flag with
  | .add => some (kq.set c.ident c.filter true)
  | .delete => if kq.registered c.ident c.filter = true then some (kq.set c.ident c.filter false) else none

/-- `kevent` with a change list and no room for events. -/
def Kqueue.kevent (kq : Kqueue) : List Change → Kqueue
  | [] => kq
  | c :: changes =>
    match kq.change c with
    | none => kq
    | some kq => kq.kevent changes

/-- The descriptor is closed. -/
def Kqueue.close (kq : Kqueue) (ident : Nat) : Kqueue :=
  ⟨Function.update kq.registered ident fun _ => false⟩

/-- A change is seen under its own descriptor and filter. -/
@[simp] theorem Kqueue.set_registered (kq : Kqueue) (ident : Nat) (filter : Filter) (on : Bool) (fd : Nat)
    (f : Filter) : (kq.set ident filter on).registered fd f =
      if fd = ident ∧ f = filter then on else kq.registered fd f := by
  by_cases hfd : fd = ident
  · subst hfd
    simp only [Kqueue.set, Function.update_self, Function.update_apply, true_and]
  · simp only [Kqueue.set, Function.update_of_ne hfd, hfd, false_and, if_false]

end CurlHttpfs.Kernel
