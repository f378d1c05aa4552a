import CurlHttpfs.Lib.Condition
import CurlHttpfs.Lib.Transition

/-!
# `ThreadPool`

Workers take jobs from one queue, run them outside the lock and count
themselves idle again. `Wait` blocks on one condition variable, idle workers
on another. Each critical section is one step; the job itself runs between
two of them. Any thread may push, also a job, and any number of threads may
wait.
-/

namespace CurlHttpfs.ThreadPool

open Transition

/-- Name of a pushed job, in the order of the pushes. -/
abbrev JobId := Nat

/-- Where a worker stands in its loop. -/
inductive WorkerPc where
  /-- Before the critical section that takes a job. -/
  | ready
  /-- In the wait set of `new_job_cv_`. -/
  | waiting
  /-- `cur_job()` runs. -/
  | running (j : JobId)
  /-- Before the critical section behind the job. -/
  | ran (j : JobId)
  /-- The thread has returned. -/
  | exited
  deriving DecidableEq

/-- The job a worker has dequeued and not accounted for. -/
def WorkerPc.job? : WorkerPc → Option JobId
  | .running j | .ran j => some j
  | .ready | .waiting | .exited => none

/-- Where a thread stands with respect to `Wait`. -/
inductive WaiterPc where
  /-- Not in `Wait`, or before its first check. -/
  | outside
  /-- In the wait set of `job_completion_cv_`. -/
  | waiting
  /-- Woken, before the next check. -/
  | woken
  deriving DecidableEq

/-- What the future of a job holds. An outcome is a value or an exception. -/
inductive Future (ε ρ : Type*) where
  /-- Nothing yet. -/
  | pending
  /-- What the job returned or threw. -/
  | ready (outcome : Except ε ρ)
  /-- The task was destroyed before it ran. -/
  | brokenPromise

/-- Where the destructor stands. -/
inductive Destructor where
  /-- It has not been called. -/
  | notStarted
  /-- `stopped_` is set and workers are being joined. -/
  | joining
  /-- The members are destroyed. -/
  | destroyed
  deriving DecidableEq

/-- A pool of `threadNum` workers with the threads `τ` around it. -/
structure State (threadNum : UInt64) (τ ε ρ : Type*) where
  /-- `idle_num_`. -/
  idleNum : UInt64
  /-- `stopped_`. -/
  stopped : Bool
  /-- `jobs_`, behind the destructor the jobs it destroyed. -/
  jobs : List JobId
  /-- The workers. -/
  worker : Fin threadNum.toNat → WorkerPc
  /-- The threads that may wait. -/
  waiter : τ → WaiterPc
  /-- Next unused job name. -/
  nextJob : JobId
  /-- The futures returned by `Push`. -/
  future : JobId → Future ε ρ
  /-- The destructor. -/
  destructor : Destructor

/-- The pool the constructor leaves: every worker counts as idle. -/
def State.init (threadNum : UInt64) (τ ε ρ : Type*) : State threadNum τ ε ρ where
  idleNum := threadNum
  stopped := false
  jobs := []
  worker _ := .ready
  waiter _ := .outside
  nextJob := 0
  future _ := .pending
  destructor := .notStarted

variable {threadNum : UInt64} {τ ε ρ : Type*}

/-- The predicate of `Wait`. -/
def State.waitDone (s : State threadNum τ ε ρ) : Prop :=
  s.stopped = true ∨ s.idleNum = threadNum ∧ s.jobs = []

instance (s : State threadNum τ ε ρ) : Decidable s.waitDone := inferInstanceAs (Decidable (_ ∨ _))

/-! ## Effects -/

/-- `Push`: the job joins the queue and one idle worker is notified. -/
def State.push (s : State threadNum τ ε ρ) (woken : Option (Fin threadNum.toNat)) :
    State threadNum τ ε ρ :=
  { s with
    jobs := s.jobs ++ [s.nextJob]
    nextJob := s.nextJob + 1
    worker := resumeOne s.worker woken .ready }

/-- A worker takes the oldest job. -/
def State.dequeue (s : State threadNum τ ε ρ) (w : Fin threadNum.toNat) (j : JobId) (rest : List JobId) :
    State threadNum τ ε ρ :=
  { s with
    jobs := rest
    idleNum := s.idleNum - 1
    worker := Function.update s.worker w (.running j) }

/-- A job returns or throws, and its task stores the outcome. -/
def State.run (s : State threadNum τ ε ρ) (w : Fin threadNum.toNat) (j : JobId) (outcome : Except ε ρ) :
    State threadNum τ ε ρ :=
  { s with
    worker := Function.update s.worker w (.ran j)
    future := Function.update s.future j (.ready outcome) }

variable [DecidableEq τ]

/-- The worker counts itself idle again and notifies one waiter. -/
def State.account (s : State threadNum τ ε ρ) (w : Fin threadNum.toNat) (woken : Option τ) :
    State threadNum τ ε ρ :=
  { s with
    idleNum := s.idleNum + 1
    worker := Function.update s.worker w .ready
    waiter := resumeOne s.waiter woken .woken }

omit [DecidableEq τ] in
/-- The first part of the destructor: workers are told to stop, waiters are not told. -/
def State.stop (s : State threadNum τ ε ρ) : State threadNum τ ε ρ :=
  { s with
    stopped := true
    worker := resumeAll s.worker .waiting .ready
    destructor := .joining }

omit [DecidableEq τ] in
/-- The members are destroyed, and with them the tasks still queued. -/
def State.destroy (s : State threadNum τ ε ρ) : State threadNum τ ε ρ :=
  { s with
    future := fun j => if j ∈ s.jobs then .brokenPromise else s.future j
    destructor := .destroyed }

/-! ## Steps -/

/-- The label of a step. -/
inductive Action (threadNum : UInt64) (τ ε ρ : Type*) where
  /-- `Push` of a job; `notify_one` may wake a worker. -/
  | push (j : JobId) (woken : Option (Fin threadNum.toNat))
  /-- A worker finds nothing to do and waits. -/
  | park (w : Fin threadNum.toNat)
  /-- A worker takes a job. -/
  | dequeue (w : Fin threadNum.toNat) (j : JobId)
  /-- A worker sees `stopped_` and returns. -/
  | exit (w : Fin threadNum.toNat)
  /-- A job runs to completion. -/
  | run (w : Fin threadNum.toNat) (j : JobId) (outcome : Except ε ρ)
  /-- A worker accounts for its job; `notify_one` may wake a waiter. -/
  | account (w : Fin threadNum.toNat) (j : JobId) (woken : Option τ)
  /-- `Wait` checks its predicate and blocks. -/
  | waitBlocks (t : τ)
  /-- `Wait` checks its predicate and returns. -/
  | waitReturns (t : τ)
  /-- The destructor sets `stopped_`. -/
  | stop
  /-- The destructor has joined all workers, and the members are destroyed. -/
  | destroy
  /-- A worker wakes without a notification. -/
  | spuriousWorker (w : Fin threadNum.toNat)
  /-- A waiter wakes without a notification. -/
  | spuriousWaiter (t : τ)

/-- The steps of workers, waiters, pushing threads and destructor. -/
inductive Step : State threadNum τ ε ρ → Action threadNum τ ε ρ → State threadNum τ ε ρ → Prop
  | push {s : State threadNum τ ε ρ} (woken : Option (Fin threadNum.toNat))
      (halive : s.destructor ≠ .destroyed) (hone : NotifyOne (fun w => s.worker w = .waiting) woken) :
      Step s (.push s.nextJob woken) (s.push woken)
  | park {s : State threadNum τ ε ρ} {w : Fin threadNum.toNat} (hready : s.worker w = .ready)
      (hempty : s.jobs = []) (hgoing : s.stopped = false) :
      Step s (.park w) { s with worker := Function.update s.worker w .waiting }
  | dequeue {s : State threadNum τ ε ρ} {w : Fin threadNum.toNat} {j : JobId} {rest : List JobId}
      (hready : s.worker w = .ready) (hjobs : s.jobs = j :: rest) (hgoing : s.stopped = false) :
      Step s (.dequeue w j) (s.dequeue w j rest)
  | exit {s : State threadNum τ ε ρ} {w : Fin threadNum.toNat} (hready : s.worker w = .ready)
      (hstopped : s.stopped = true) :
      Step s (.exit w) { s with worker := Function.update s.worker w .exited }
  | run {s : State threadNum τ ε ρ} {w : Fin threadNum.toNat} {j : JobId} (outcome : Except ε ρ)
      (hrunning : s.worker w = .running j) : Step s (.run w j outcome) (s.run w j outcome)
  | account {s : State threadNum τ ε ρ} {w : Fin threadNum.toNat} {j : JobId} (woken : Option τ)
      (hran : s.worker w = .ran j) (hone : NotifyOne (fun t => s.waiter t = .waiting) woken) :
      Step s (.account w j woken) (s.account w woken)
  | waitBlocks {s : State threadNum τ ε ρ} {t : τ} (halive : s.destructor ≠ .destroyed)
      (hchecks : s.waiter t ≠ .waiting) (hblocks : ¬s.waitDone) :
      Step s (.waitBlocks t) { s with waiter := Function.update s.waiter t .waiting }
  | waitReturns {s : State threadNum τ ε ρ} {t : τ} (halive : s.destructor ≠ .destroyed)
      (hchecks : s.waiter t ≠ .waiting) (hreturns : s.waitDone) :
      Step s (.waitReturns t) { s with waiter := Function.update s.waiter t .outside }
  | stop {s : State threadNum τ ε ρ} (hfirst : s.destructor = .notStarted) : Step s .stop s.stop
  | destroy {s : State threadNum τ ε ρ} (hjoining : s.destructor = .joining)
      (hjoined : ∀ w, s.worker w = .exited) : Step s .destroy s.destroy
  | spuriousWorker {s : State threadNum τ ε ρ} {w : Fin threadNum.toNat} (hwaiting : s.worker w = .waiting) :
      Step s (.spuriousWorker w) { s with worker := Function.update s.worker w .ready }
  | spuriousWaiter {s : State threadNum τ ε ρ} {t : τ} (halive : s.destructor ≠ .destroyed)
      (hwaiting : s.waiter t = .waiting) :
      Step s (.spuriousWaiter t) { s with waiter := Function.update s.waiter t .woken }

/-- The worker of a pool of one. -/
def onlyWorker : Fin (UInt64.toNat 1) := ⟨0, by decide⟩

end CurlHttpfs.ThreadPool
