import Mathlib.Data.List.Basic

/-!
# Timer and event descriptors

Two kernel objects a polling loop waits on. A one-shot timer becomes readable
when its deadline passes and stays so until it is read or set again; setting
it drops an unread expiration. An event counter is readable while it is
positive; reading it takes the whole count, so writes may be merged.
-/

namespace CurlHttpfs.Kernel

/-! ## Timers -/

/-- `it_value` of an `itimerspec` whose interval is zero. -/
structure ITimerSpec where
  /-- Whole seconds. -/
  tvSec : Nat
  /-- Nanoseconds within the second. -/
  tvNsec : Nat
  deriving DecidableEq

/-- The time a specification stands for, in nanoseconds. -/
def ITimerSpec.nanos (its : ITimerSpec) : Nat := its.tvSec * 1000000000 + its.tvNsec

/-- A non-blocking one-shot timer. -/
structure TimerFd where
  /-- When the timer expires or expired, until the expiration is read. -/
  deadline : Option Nat
  deriving DecidableEq

/-- An unread expiration exists. -/
def TimerFd.Expired (timer : TimerFd) (now : Nat) : Prop := ∃ d ∈ timer.deadline, d ≤ now

instance (timer : TimerFd) (now : Nat) : Decidable (timer.Expired now) :=
  inferInstanceAs (Decidable (∃ d ∈ timer.deadline, d ≤ now))

/-- `timerfd_settime`, relative to now. A zero time disarms the timer; a
nanosecond part of a second or more is refused. -/
def TimerFd.settime (now : Nat) (its : ITimerSpec) : Option TimerFd :=
  if its.tvNsec < 1000000000 then
    some ⟨if its.nanos = 0 then none else some (now + its.nanos)⟩
  else none

/-- A non-blocking read: the expiration count, or nothing (`EAGAIN`). -/
def TimerFd.read (now : Nat) (timer : TimerFd) : Option (Nat × TimerFd) :=
  if timer.Expired now then some (1, ⟨none⟩) else none

/-- Time does not take an expiration back. -/
theorem TimerFd.Expired.mono {timer : TimerFd} {now later : Nat} (h : timer.Expired now)
    (hle : now ≤ later) : timer.Expired later := by
  obtain ⟨d, hd, hdue⟩ := h
  have hlate : d ≤ later := by omega
  exact ⟨d, hd, hlate⟩

/-- A read takes an unread expiration. -/
theorem TimerFd.read_expired {timer : TimerFd} {now : Nat} (h : timer.Expired now) :
    timer.read now = some (1, ⟨none⟩) := by
  rw [TimerFd.read, if_pos h]

/-- A read without an unread expiration fails. -/
theorem TimerFd.read_blocked {timer : TimerFd} {now : Nat} (h : ¬timer.Expired now) :
    timer.read now = none := by
  rw [TimerFd.read, if_neg h]

/-! ## Event counters -/

/-- The largest value of an event counter. -/
def maxCounter : Nat := 18446744073709551614

/-- A non-blocking event counter. -/
structure EventFd where
  /-- The counter. -/
  counter : Nat
  /-- The kernel never lets it overflow. -/
  bounded : counter ≤ maxCounter

/-- A new counter. -/
def EventFd.zero : EventFd := ⟨0, Nat.zero_le _⟩

/-- A non-blocking write adds to the counter unless it would overflow (`EAGAIN`). -/
def EventFd.write (e : EventFd) (n : Nat) : Option EventFd :=
  if h : e.counter + n ≤ maxCounter then some ⟨e.counter + n, h⟩ else none

/-- A non-blocking read takes the whole count, or nothing when it is zero (`EAGAIN`). -/
def EventFd.read (e : EventFd) : Option (Nat × EventFd) :=
  if e.counter = 0 then none else some (e.counter, zero)

/-- Whether or not a write of one fits, the counter is positive behind it. -/
theorem EventFd.write_one_positive (e : EventFd) :
    match e.write 1 with
    | some e' => 0 < e'.counter
    | none => 0 < e.counter := by
  unfold EventFd.write
  by_cases h : e.counter + 1 ≤ maxCounter
  · rw [dif_pos h]
    exact Nat.succ_pos _
  · rw [dif_neg h]
    have hmax : 0 < maxCounter := by decide
    change 0 < e.counter
    omega

/-- A read succeeds on a positive counter and clears it. -/
theorem EventFd.read_positive {e : EventFd} (h : 0 < e.counter) : e.read = some (e.counter, zero) := by
  have hne : e.counter ≠ 0 := by omega
  rw [EventFd.read, if_neg hne]

end CurlHttpfs.Kernel
