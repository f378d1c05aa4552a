import CurlHttpfs.ThreadPool.Barrier

/-!
# The destructor and the futures

Setting `stopped_` ends dequeueing, whatever the queue still holds. Each
worker finishes the job it has in hand and returns. Behind the join the jobs
split in two at one point of the push order: those before it have run and
their futures hold what they returned or threw, those behind it were destroyed
with the queue and their futures report it.
-/

namespace CurlHttpfs.ThreadPool

open Transition

section

variable {threadNum : UInt64} {τ ε ρ : Type*} [DecidableEq τ]
  {history : List (Move (State threadNum τ ε ρ) (Action threadNum τ ε ρ))}
  {s t : State threadNum τ ε ρ} {a : Action threadNum τ ε ρ}

/-! ## Stopping -/

/-- Nothing takes `stopped_` back. -/
theorem stopped_step (hstep : Step s a t) (hstopped : s.stopped = true ∨ a = .stop) : t.stopped = true := by
  cases hstep with
  | stop hfirst => rfl
  | _ => exact hstopped.resolve_right nofun

/-- Behind the destructor's first step `stopped_` is set. -/
theorem run_stopped (hrun : Run Step (State.init threadNum τ ε ρ) history s)
    (hstop : .stop ∈ labels history) : s.stopped = true := by
  refine hrun.induct (I := fun history s => .stop ∈ labels history → s.stopped = true)
    (fun hnil => absurd hnil List.not_mem_nil) ?_ hstop
  intro history s a t _ hI hstep hstop
  rw [labels_snoc] at hstop
  rcases List.mem_append.mp hstop with hbefore | hnow
  · exact stopped_step hstep (.inl (hI hbefore))
  · exact stopped_step hstep (.inr (List.mem_singleton.mp hnow).symm)

/-- A worker that sees `stopped_` takes no job. -/
theorem dequeued_none (hstep : Step s a t) (hstopped : s.stopped = true) : a.dequeued? = none := by
  cases hstep with
  | dequeue hready hjobs hgoing => cases hstopped.symm.trans hgoing
  | _ => rfl

/-- A destroyed pool is not stirred again. -/
theorem destroyed_final (hdestroyed : s.destructor = .destroyed) (hexited : ∀ w, s.worker w = .exited) :
    ¬Step s a t := by
  intro hstep
  cases hstep with
  | push woken halive hone => exact halive hdestroyed
  | park hready hempty hgoing => cases hready.symm.trans (hexited _)
  | dequeue hready hjobs hgoing => cases hready.symm.trans (hexited _)
  | exit hready hstopped => cases hready.symm.trans (hexited _)
  | run outcome hrunning => cases hrunning.symm.trans (hexited _)
  | account woken hran hone => cases hran.symm.trans (hexited _)
  | waitBlocks halive hchecks hblocks => exact halive hdestroyed
  | waitReturns halive hchecks hreturns => exact halive hdestroyed
  | stop hfirst => cases hfirst.symm.trans hdestroyed
  | destroy hjoining hjoined => cases hjoining.symm.trans hdestroyed
  | spuriousWorker hwaiting => cases hwaiting.symm.trans (hexited _)
  | spuriousWaiter halive hwaiting => exact halive hdestroyed

/-- Behind the destructor all workers have returned and the queued tasks are destroyed. -/
theorem run_destroyed (hrun : Run Step (State.init threadNum τ ε ρ) history s)
    (hdestroyed : s.destructor = .destroyed) :
    (∀ w, s.worker w = .exited) ∧ ∀ j ∈ s.jobs, s.future j = .brokenPromise := by
  refine hrun.invariant (I := fun s => s.destructor = .destroyed →
    (∀ w, s.worker w = .exited) ∧ ∀ j ∈ s.jobs, s.future j = .brokenPromise)
    (fun hnone => Destructor.noConfusion hnone) ?_ hdestroyed
  intro s a t hI hstep hdestroyed
  have hold (hbefore : s.destructor = .destroyed) : False := destroyed_final hbefore (hI hbefore).1 hstep
  cases hstep with
  | destroy hjoining hjoined => exact ⟨hjoined, fun j hj => if_pos hj⟩
  | stop hfirst => cases hdestroyed
  | _ => exact absurd hdestroyed hold

/-! ## Shutdown -/

/-- How the futures of a job settle. -/
def Settles (history : List (Move (State threadNum τ ε ρ) (Action threadNum τ ε ρ)))
    (s : State threadNum τ ε ρ) (j : JobId) : Prop :=
  (∃ w outcome, (order Action.ran? history).count j = 1 ∧ .run w j outcome ∈ labels history ∧
      s.future j = .ready outcome) ∨
    j ∉ order Action.ran? history ∧ s.future j = .brokenPromise

/-- What a pool guarantees across its shutdown. -/
structure ShutDown (history : List (Move (State threadNum τ ε ρ) (Action threadNum τ ε ρ)))
    (s : State threadNum τ ε ρ) : Prop where
  /-- Jobs are dequeued in push order. -/
  ordered : order Action.dequeued? history <+: order Action.pushed? history
  /-- Each is dequeued at most once. -/
  once : (order Action.dequeued? history).Nodup
  /-- None is dequeued once `stopped_` is set. -/
  stopped : ∀ earlier m, earlier ++ [m] <+: history → .stop ∈ labels earlier → m.label.dequeued? = none
  /-- Behind the destructor every future is settled. -/
  settled : s.destructor = .destroyed → ∀ j ∈ order Action.pushed? history, Settles history s j
  /-- The jobs that ran are the first ones of the push order. -/
  ran : s.destructor = .destroyed → ∃ first, first <+: order Action.pushed? history ∧
    ∀ j, j ∈ order Action.ran? history ↔ j ∈ first

/-- Behind the destructor the jobs that ran are those that were dequeued, once each. -/
theorem run_ran_count (hrun : Run Step (State.init threadNum τ ε ρ) history s)
    (hdestroyed : s.destructor = .destroyed) (j : JobId) :
    (order Action.ran? history).count j = (order Action.dequeued? history).count j := by
  have hexited := (run_destroyed hrun hdestroyed).1
  have hholds : census (Holds j) s.worker = 0 :=
    census_eq_zero_iff.mpr fun w => hexited w ▸ not_holds rfl
  have hhasRun : census (HasRun j) s.worker = 0 :=
    census_eq_zero_iff.mpr fun w hw => census_eq_zero_iff.mp hholds w hw.holds
  rw [run_hasRun hrun, run_inHand hrun, hholds, hhasRun]

/-- Futures settle consistently in every run of a pool of any size, in any
interleaving of pushes, workers and destructor. -/
theorem run_shutDown (hrun : Run Step (State.init threadNum τ ε ρ) history s) : ShutDown history s := by
  have hordered : order Action.dequeued? history <+: order Action.pushed? history :=
    ⟨s.jobs, (run_queue hrun).symm⟩
  have honce : (order Action.dequeued? history).Nodup :=
    (run_pushed_nodup hrun).sublist hordered.sublist
  refine ⟨hordered, honce, ?_, ?_, ?_⟩
  · intro earlier m hle hstop
    obtain ⟨hpast, hstep⟩ := hrun.of_prefix hle
    exact dequeued_none hstep (run_stopped hpast hstop)
  · intro hdestroyed j hj
    rw [run_queue hrun] at hj
    rcases List.mem_append.mp hj with hdequeued | hqueued
    · have hcount := run_ran_count hrun hdestroyed j
      rw [List.count_eq_one_of_mem honce hdequeued] at hcount
      have hran : j ∈ order Action.ran? history := List.count_pos_iff.mp (by omega)
      obtain ⟨outcome, hready⟩ := run_ran hrun hran
      obtain ⟨w, hm⟩ := run_ready hrun hready
      exact .inl ⟨w, outcome, hcount, hm, hready⟩
    · exact .inr ⟨run_queued hrun hqueued, (run_destroyed hrun hdestroyed).2 j hqueued⟩
  · intro hdestroyed
    refine ⟨order Action.dequeued? history, hordered, fun j => ?_⟩
    rw [← List.count_pos_iff, run_ran_count hrun hdestroyed, List.count_pos_iff]

end

/-- One worker has the first of two jobs in hand when the destructor starts. -/
theorem shutDown_run :
    ∃ (history : List (Move (State 1 Unit Unit Nat) (Action 1 Unit Unit Nat))) (s : _),
      Run Step (State.init 1 Unit Unit Nat) history s ∧ s.destructor = .destroyed ∧
      0 ∈ order Action.pushed? history ∧ 1 ∈ order Action.pushed? history ∧
      order Action.ran? history = [0] := by
  have start : Run Step (State.init 1 Unit Unit Nat) [] _ := .nil
  have pushed := start.snoc (.push none nofun fun _ => nofun)
  have taken := pushed.snoc (.dequeue (w := onlyWorker) rfl rfl rfl)
  have pushed := taken.snoc (.push none nofun (by decide))
  have stopped := pushed.snoc (.stop rfl)
  have ran := stopped.snoc (.run (w := onlyWorker) (.error ()) rfl)
  have accounted := ran.snoc (.account (w := onlyWorker) none rfl fun _ => nofun)
  have exited := accounted.snoc (.exit (w := onlyWorker) rfl rfl)
  have destroyed := exited.snoc (.destroy rfl (by decide))
  exact ⟨_, _, destroyed, rfl, by decide, by decide, rfl⟩

/-- The second job is never run and its future says so. -/
theorem run_shutDown_broken :
    ∃ (history : List (Move (State 1 Unit Unit Nat) (Action 1 Unit Unit Nat))) (s : State 1 Unit Unit Nat),
      Run Step (State.init 1 Unit Unit Nat) history s ∧ s.destructor = .destroyed ∧
      order Action.ran? history = [0] ∧ s.future 1 = .brokenPromise := by
  obtain ⟨history, s, hrun, hdestroyed, -, hsecond, hran⟩ := shutDown_run
  have hshut := run_shutDown hrun
  refine ⟨history, s, hrun, hdestroyed, hran, ?_⟩
  rcases hshut.settled hdestroyed 1 hsecond with ⟨w, outcome, hcount, -⟩ | ⟨-, hbroken⟩
  · rw [hran] at hcount
    exact absurd hcount (by decide)
  · exact hbroken

end CurlHttpfs.ThreadPool
