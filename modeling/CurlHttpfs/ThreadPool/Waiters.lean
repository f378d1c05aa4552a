import CurlHttpfs.ThreadPool.Barrier

/-!
# Waiters left behind

A worker that accounts for its job wakes one waiter, a waiter that returns
wakes nobody, and the destructor signals only the condition variable of the
workers. So a thread stays in the wait set for good when the last notification
went to another one, or when the pool stops with nothing left to run.
-/

namespace CurlHttpfs.ThreadPool

open Transition

section

variable {threadNum : UInt64} {τ ε ρ : Type*}

/-- A thread is in the wait set although `Wait` should return, no woken waiter
is on its way, and no worker has a job in hand behind which it would notify.
No job can be dequeued either, for the queue is empty or the pool is stopped. -/
structure Stranded (s : State threadNum τ ε ρ) : Prop where
  /-- Somebody waits. -/
  waits : ∃ u, s.waiter u = .waiting
  /-- The predicate of `Wait` is true. -/
  done : s.waitDone
  /-- Nobody is woken. -/
  asleep : ∀ u, s.waiter u ≠ .woken
  /-- Every worker is without a job. -/
  idle : ∀ w, ¬Busy (s.worker w)

/-- If a thread waits, apart from the one that leaves, another one is woken or
a worker has a job in hand. -/
def Relieved (s : State threadNum τ ε ρ) (leaving : Option τ) : Prop :=
  (∃ u, some u ≠ leaving ∧ s.waiter u = .waiting) →
    (∃ u, some u ≠ leaving ∧ s.waiter u = .woken) ∨ ∃ w, Busy (s.worker w)

/-- The step does not take the last hope of a waiting thread: no waiter
returns, and the pool is not stopped, while a thread waits that nothing else
will wake. -/
def Considerate (m : Move (State threadNum τ ε ρ) (Action threadNum τ ε ρ)) : Prop :=
  match m.label with
  | .waitReturns u => Relieved m.pre (some u)
  | .stop => Relieved m.pre none
  | _ => True

variable [DecidableEq τ] {history : List (Move (State threadNum τ ε ρ) (Action threadNum τ ε ρ))}
  {s t : State threadNum τ ε ρ} {a : Action threadNum τ ε ρ}

/-- Workers without a job had none before, unless one has just accounted for its job. -/
theorem idle_step (hstep : Step s a t) (hidle : ∀ w, ¬Busy (t.worker w)) :
    (∀ w, ¬Busy (s.worker w)) ∨ a.accounted? ≠ none := by
  rcases worker_step hstep with ⟨w, j, rfl, -, hworker, -⟩ | ⟨w, j, outcome, rfl, -, hworker, -⟩ |
    ⟨w, j, woken, rfl, -⟩ | ⟨-, -, -, -, hcensus⟩
  · refine absurd ?_ (hidle w)
    rw [hworker, Function.update_self]
    exact Holds.busy (j := j) rfl
  · refine absurd ?_ (hidle w)
    rw [hworker, Function.update_self]
    exact Holds.busy (j := j) rfl
  · exact .inr nofun
  · refine .inl (census_eq_zero_iff.mp ?_)
    rw [← hcensus Busy fun pc hnone hbusy => hbusy hnone]
    exact census_eq_zero_iff.mpr hidle

omit [DecidableEq τ] in
/-- The pool strands a waiter when it stops exactly when it does so at once. -/
theorem stranded_stop : Stranded s.stop ↔ ¬Relieved s none := by
  have hworkers : (∀ w, ¬Busy (s.stop.worker w)) ↔ ∀ w, ¬Busy (s.worker w) := by
    have hready : ¬Busy .ready := fun hbusy => hbusy rfl
    have hwaiting : ¬Busy .waiting := fun hbusy => hbusy rfl
    rw [← census_eq_zero_iff, ← census_eq_zero_iff]
    exact (congrArg (· = 0) (census_resumeAll hwaiting hready)).to_iff
  rw [Relieved, Classical.not_imp, not_or, not_exists, not_exists]
  constructor
  · rintro ⟨⟨u, hu⟩, -, hasleep, hidle⟩
    exact ⟨⟨u, nofun, hu⟩, fun u hwoken => hasleep u hwoken.2, hworkers.mp hidle⟩
  · rintro ⟨⟨u, -, hu⟩, hasleep, hidle⟩
    exact ⟨⟨u, hu⟩, .inl rfl, fun u hwoken => hasleep u ⟨nofun, hwoken⟩, hworkers.mpr hidle⟩

/-- A thread that returns strands another one exactly when nothing relieves that one. -/
theorem stranded_waitReturns {u : τ} (hdone : s.waitDone) :
    Stranded { s with waiter := Function.update s.waiter u .outside } ↔ ¬Relieved s (some u) := by
  have hothers (pc : WaiterPc) (hpc : pc ≠ .outside) (v : τ) :
      Function.update s.waiter u .outside v = pc ↔ some v ≠ some u ∧ s.waiter v = pc := by
    by_cases he : v = u
    · subst he
      rw [Function.update_self]
      exact iff_of_false (fun h => hpc h.symm) fun h => h.1 rfl
    · rw [Function.update_of_ne he]
      exact ⟨fun h => ⟨fun hs => he (Option.some.inj hs), h⟩, And.right⟩
  have hwaiting := hothers .waiting nofun
  have hwoken := hothers .woken nofun
  rw [Relieved, Classical.not_imp, not_or, not_exists, not_exists]
  constructor
  · rintro ⟨⟨v, hv⟩, -, hasleep, hidle⟩
    exact ⟨⟨v, (hwaiting v).mp hv⟩, fun v hv => hasleep v ((hwoken v).mpr hv), hidle⟩
  · rintro ⟨⟨v, hv⟩, hasleep, hidle⟩
    exact ⟨⟨v, (hwaiting v).mpr hv⟩, hdone, fun v hv => hasleep v ((hwoken v).mp hv), hidle⟩

/-- From a state without a stranded waiter, a step strands one exactly when it is not considerate. -/
theorem stranded_step (hs : ¬Stranded s) (hstep : Step s a t) : ¬Stranded t ↔ Considerate ⟨s, a, t⟩ := by
  have hidle := idle_step hstep
  cases hstep with
  | waitReturns halive hchecks hreturns => exact not_iff_comm.mp (stranded_waitReturns hreturns).symm
  | stop hfirst => exact not_iff_comm.mp stranded_stop.symm
  | push woken halive hone =>
    refine iff_of_true (fun ht => hs ⟨ht.waits, ?_, ht.asleep, ?_⟩) trivial
    · rcases ht.done with hstopped | ⟨-, hjobs⟩
      · exact .inl hstopped
      · exact absurd hjobs (List.append_ne_nil_of_right_ne_nil _ (List.cons_ne_nil _ _))
    · exact (hidle ht.idle).resolve_right fun hne => hne rfl
  | park hready hempty hgoing =>
    refine iff_of_true (fun ht => hs ⟨ht.waits, ht.done, ht.asleep, ?_⟩) trivial
    exact (hidle ht.idle).resolve_right fun hne => hne rfl
  | exit hready hstopped =>
    refine iff_of_true (fun ht => hs ⟨ht.waits, ht.done, ht.asleep, ?_⟩) trivial
    exact (hidle ht.idle).resolve_right fun hne => hne rfl
  | spuriousWorker hwaiting =>
    refine iff_of_true (fun ht => hs ⟨ht.waits, ht.done, ht.asleep, ?_⟩) trivial
    exact (hidle ht.idle).resolve_right fun hne => hne rfl
  | destroy hjoining hjoined =>
    exact iff_of_true (fun ht => hs ⟨ht.waits, ht.done, ht.asleep, ht.idle⟩) trivial
  | @dequeue w j rest hready hjobs hgoing =>
    refine iff_of_true (fun ht => ht.idle w ?_) trivial
    change Busy (Function.update s.worker w (.running j) w)
    rw [Function.update_self]
    exact Holds.busy (j := j) rfl
  | @run w j outcome hrunning =>
    refine iff_of_true (fun ht => ht.idle w ?_) trivial
    change Busy (Function.update s.worker w (.ran j) w)
    rw [Function.update_self]
    exact Holds.busy (j := j) rfl
  | @account w j woken hran hone =>
    -- whoever still waits behind the notification, another one was woken
    refine iff_of_true (fun ht => ?_) trivial
    obtain ⟨u, hu⟩ := ht.waits
    rcases resumeOne_cases .woken hone u with hkept | ⟨-, hwoken⟩
    · obtain ⟨v, hv⟩ := resumeOne_resumes .woken hone (hkept.symm.trans hu)
      exact ht.asleep v hv
    · exact ht.asleep u hwoken
  | waitBlocks halive hchecks hblocks => exact iff_of_true (fun ht => hblocks ht.done) trivial
  | @spuriousWaiter u halive hwaiting =>
    exact iff_of_true (fun ht => ht.asleep u (Function.update_self _ _ _)) trivial

/-- In every run of a pool of any size with any number of waiting threads, no
waiter is left behind if and only if every step is considerate. -/
theorem run_stranded_iff (hrun : Run Step (State.init threadNum τ ε ρ) history s) :
    (∀ m ∈ history, ¬Stranded m.post) ↔ ∀ m ∈ history, Considerate m := by
  refine hrun.forall_post_iff ?_ fun s a t hs hstep => stranded_step hs hstep
  intro hstranded
  obtain ⟨u, hu⟩ := hstranded.waits
  cases hu

end

/-- Two threads wait for one job. Its worker wakes one of them, which returns. -/
theorem stranded_run :
    ∃ (history : List (Move (State 1 Bool Unit Nat) (Action 1 Bool Unit Nat))) (m : _) (s : _),
      Run Step (State.init 1 Bool Unit Nat) history s ∧ m ∈ history ∧ m.post = s ∧ Stranded s := by
  have start : Run Step (State.init 1 Bool Unit Nat) [] _ := .nil
  have pushed := start.snoc (.push none nofun (by decide))
  have waits := pushed.snoc (.waitBlocks (t := false) nofun nofun (by decide))
  have waits := waits.snoc (.waitBlocks (t := true) nofun nofun (by decide))
  have taken := waits.snoc (.dequeue (w := onlyWorker) rfl rfl rfl)
  have ran := taken.snoc (.run (w := onlyWorker) (.ok 7) rfl)
  have accounted := ran.snoc (.account (w := onlyWorker) (some false) rfl rfl)
  have returned := accounted.snoc (.waitReturns (t := false) nofun nofun (by decide))
  refine ⟨_, _, _, returned, List.mem_append_right _ (List.mem_singleton_self _), rfl, ?_⟩
  exact ⟨⟨true, rfl⟩, by decide, by decide, by decide⟩

/-- The equivalence for that run. -/
theorem run_stranded_two :
    ∃ (history : List (Move (State 1 Bool Unit Nat) (Action 1 Bool Unit Nat))) (s : State 1 Bool Unit Nat),
      Run Step (State.init 1 Bool Unit Nat) history s ∧ (∃ m ∈ history, Stranded m.post) ∧
      ((∀ m ∈ history, ¬Stranded m.post) ↔ ∀ m ∈ history, Considerate m) := by
  obtain ⟨history, m, s, hrun, hm, rfl, hstranded⟩ := stranded_run
  exact ⟨history, m.post, hrun, ⟨m, hm, hstranded⟩, run_stranded_iff hrun⟩

/-- A waiter can be left behind. -/
theorem waiter_left_behind :
    ¬∀ history s, Run Step (State.init 1 Bool Unit Nat) history s → ¬Stranded s := by
  intro hnever
  obtain ⟨history, m, s, hrun, -, -, hstranded⟩ := stranded_run
  exact hnever history s hrun hstranded

end CurlHttpfs.ThreadPool
