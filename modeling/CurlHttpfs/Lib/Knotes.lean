import Mathlib.Data.Nat.Basic

/-!
# Timers and user events of a kernel queue

A timer of a kernel queue is periodic and clears itself: retrieving it
reports all expirations since the last retrieval at once and arms it for the
first multiple of its period that lies ahead. A user event that clears itself
is a flag that a trigger sets and a retrieval takes back.
-/

namespace CurlHttpfs.Kernel

/-- An `EVFILT_TIMER` entry. -/
structure KTimer where
  /-- The period. -/
  period : Nat
  /-- A timer always has a positive one. -/
  positive : 0 < period
  /-- The first expiration that was not retrieved. -/
  due : Nat

/-- `EV_ADD` of a timer, which also replaces an earlier one. -/
def KTimer.add (now : Nat) (period : { p : Nat // 0 < p }) : KTimer :=
  ⟨period.1, period.2, now + period.1⟩

/-- An expiration was not retrieved yet. -/
def KTimer.Fired (timer : KTimer) (now : Nat) : Prop := timer.due ≤ now

instance (timer : KTimer) (now : Nat) : Decidable (timer.Fired now) :=
  inferInstanceAs (Decidable (timer.due ≤ now))

/-- The expirations that one retrieval reports together. -/
def KTimer.expirations (now : Nat) (timer : KTimer) : Nat := (now - timer.due) / timer.period + 1

/-- The retrieval of a timer that has fired. -/
def KTimer.retrieve (now : Nat) (timer : KTimer) : KTimer :=
  { timer with due := timer.due + timer.expirations now * timer.period }

/-- Behind a retrieval the timer is due later than now, but not by more than its period. -/
theorem KTimer.retrieve_due {timer : KTimer} {now : Nat} (h : timer.Fired now) :
    now < (timer.retrieve now).due ∧ (timer.retrieve now).due ≤ now + timer.period := by
  have hdue : timer.due ≤ now := h
  have hsplit := Nat.div_add_mod (now - timer.due) timer.period
  have hrest := Nat.mod_lt (now - timer.due) timer.positive
  have hmul : ((now - timer.due) / timer.period + 1) * timer.period =
      timer.period * ((now - timer.due) / timer.period) + timer.period := by
    rw [Nat.add_mul, Nat.one_mul, Nat.mul_comm]
  change now < timer.due + ((now - timer.due) / timer.period + 1) * timer.period ∧
    timer.due + ((now - timer.due) / timer.period + 1) * timer.period ≤ now + timer.period
  omega

end CurlHttpfs.Kernel
