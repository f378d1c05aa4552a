import CurlHttpfs.Lib.Potential
import CurlHttpfs.ThreadPool.Shutdown

/-!
# Progress of the pool

A push wakes one parked worker, a worker parks only when it finds the queue
empty, and a worker that comes back from a job looks at the queue again. So
while a worker is parked there are at least as many workers on their way to
the queue as there are jobs in it. With that, workers left to themselves empty
the queue and park, and behind `stopped_` they all return, after a number of
steps that the queue and their positions bound.
-/

namespace CurlHttpfs.ThreadPool

open Transition

section

variable {threadNum : UInt64} {τ ε ρ : Type*} [DecidableEq τ]
  {history : List (Move (State threadNum τ ε ρ) (Action threadNum τ ε ρ))}
  {s t : State threadNum τ ε ρ} {a : Action threadNum τ ε ρ}

/-! ## No forgotten job -/

/-- The worker is about to look at the queue. -/
def AtQueue (pc : WorkerPc) : Prop := pc = .ready

instance : DecidablePred AtQueue := fun pc => inferInstanceAs (Decidable (pc = .ready))

omit [DecidableEq τ] in
/-- How parked workers relate to the queue and to `stopped_`. -/
structure Attentive (s : State threadNum τ ε ρ) : Prop where
  /-- While a worker is parked, each queued job has a worker on its way to the queue. -/
  staffed : (∃ w, s.worker w = .waiting) → s.jobs.length ≤ census AtQueue s.worker
  /-- No worker is parked in a stopped pool. -/
  parked : ∀ w, s.worker w = .waiting → s.stopped = false
  /-- No worker has returned from a pool that is not stopped. -/
  returned : ∀ w, s.worker w = .exited → s.stopped = true

omit [DecidableEq τ] in
/-- Another worker's position is as before. -/
theorem update_waiting {worker : Fin threadNum.toNat → WorkerPc} {w w' : Fin threadNum.toNat} {pc old : WorkerPc}
    (hpc : pc ≠ old) (h : Function.update worker w pc w' = old) : w' ≠ w ∧ worker w' = old := by
  by_cases he : w' = w
  · subst he
    rw [Function.update_self] at h
    exact absurd h hpc
  · rw [Function.update_of_ne he] at h
    exact ⟨he, h⟩

omit [DecidableEq τ] in
/-- A worker that moves somewhere else than into the wait set or out of the
pool keeps the pool attentive if its move makes up for the queue. -/
theorem Attentive.move (hs : Attentive s) (w : Fin threadNum.toNat) (pc : WorkerPc)
    (hwaiting : pc ≠ .waiting) (hexited : pc ≠ .exited) (ht : t.worker = Function.update s.worker w pc)
    (hstopped : t.stopped = s.stopped)
    (hcount : s.jobs.length ≤ census AtQueue s.worker → t.jobs.length ≤ census AtQueue t.worker) :
    Attentive t where
  staffed := by
    rintro ⟨w', hw'⟩
    rw [ht] at hw'
    exact hcount (hs.staffed ⟨w', (update_waiting hwaiting hw').2⟩)
  parked w' hw' := by
    rw [ht] at hw'
    exact hstopped.trans (hs.parked w' (update_waiting hwaiting hw').2)
  returned w' hw' := by
    rw [ht] at hw'
    exact hstopped.trans (hs.returned w' (update_waiting hexited hw').2)

/-- Every step keeps the pool attentive. -/
theorem attentive_step (hs : Attentive s) (hstep : Step s a t) : Attentive t := by
  have hready : AtQueue .ready := rfl
  cases hstep with
  | push woken halive hone =>
    cases woken with
    | none =>
      -- nobody was parked, so nobody is
      exact ⟨fun ⟨w, hw⟩ => absurd hw (hone w), hs.parked, hs.returned⟩
    | some w =>
      have hout : ¬AtQueue (s.worker w) := fun hat => WorkerPc.noConfusion (hat.symm.trans hone)
      refine hs.move w .ready (by decide) (by decide) rfl rfl fun hle => ?_
      change (s.jobs ++ [s.nextJob]).length ≤ census AtQueue (Function.update s.worker w .ready)
      rw [census_enter hout hready, List.length_append, List.length_singleton]
      exact Nat.succ_le_succ (hs.staffed ⟨w, hone⟩)
  | @park w hat hempty hgoing =>
    refine ⟨fun _ => ?_, fun _ _ => hgoing, fun w' hw' => ?_⟩
    · change s.jobs.length ≤ _
      rw [hempty]
      exact Nat.zero_le _
    · exact hs.returned w' (update_waiting (by decide) hw').2
  | @dequeue w j rest hat hjobs hgoing =>
    refine hs.move w (.running j) nofun nofun rfl rfl fun hle => ?_
    have hin : AtQueue (s.worker w) := hat
    have hout : ¬AtQueue (.running j) := nofun
    have hleave := census_leave hin hout
    rw [hjobs, List.length_cons] at hle
    change rest.length ≤ census AtQueue (Function.update s.worker w (.running j))
    omega
  | @exit w hat hstopped =>
    have hgoing (w' : Fin threadNum.toNat) (hw' : Function.update s.worker w .exited w' = .waiting) : False := by
      have hparked := hs.parked w' (update_waiting (by decide) hw').2
      cases hstopped.symm.trans hparked
    exact ⟨fun ⟨w', hw'⟩ => (hgoing w' hw').elim, fun w' hw' => (hgoing w' hw').elim, fun _ _ => hstopped⟩
  | @run w j outcome hrunning =>
    refine hs.move w (.ran j) nofun nofun rfl rfl fun hle => ?_
    have hbefore : ¬AtQueue (s.worker w) := fun hat => WorkerPc.noConfusion (hat.symm.trans hrunning)
    have hbehind : ¬AtQueue (.ran j) := nofun
    change s.jobs.length ≤ census AtQueue (Function.update s.worker w (.ran j))
    rw [census_stay (iff_of_false hbehind hbefore)]
    exact hle
  | @account w j woken hran hone =>
    refine hs.move w .ready (by decide) (by decide) rfl rfl fun hle => ?_
    have hbefore : ¬AtQueue (s.worker w) := fun hat => WorkerPc.noConfusion (hat.symm.trans hran)
    change s.jobs.length ≤ census AtQueue (Function.update s.worker w .ready)
    rw [census_enter hbefore hready]
    exact Nat.le_succ_of_le hle
  | stop hfirst =>
    have hnone (w : Fin threadNum.toNat) : resumeAll s.worker .waiting .ready w ≠ .waiting := by
      unfold resumeAll
      split
      · decide
      · assumption
    exact ⟨fun ⟨w, hw⟩ => absurd hw (hnone w), fun w hw => absurd hw (hnone w), fun _ _ => rfl⟩
  | @spuriousWorker w hwaiting =>
    refine hs.move w .ready (by decide) (by decide) rfl rfl fun hle => ?_
    have hbefore : ¬AtQueue (s.worker w) := fun hat => WorkerPc.noConfusion (hat.symm.trans hwaiting)
    change s.jobs.length ≤ census AtQueue (Function.update s.worker w .ready)
    rw [census_enter hbefore hready]
    exact Nat.le_succ_of_le hle
  | _ => exact ⟨hs.staffed, hs.parked, hs.returned⟩

/-- In every run of a pool of any size, in any interleaving, no queued job is
forgotten: while a worker is parked, at least as many workers are on their
way to the queue as there are jobs in it. -/
theorem run_attentive (hrun : Run Step (State.init threadNum τ ε ρ) history s) : Attentive s :=
  hrun.invariant ⟨fun ⟨_, hw⟩ => WorkerPc.noConfusion hw, fun _ hw => WorkerPc.noConfusion hw,
    fun _ hw => WorkerPc.noConfusion hw⟩ fun _ _ _ hs hstep => attentive_step hs hstep

/-! ## Work left -/

omit [DecidableEq τ] in
/-- The steps a worker takes before it waits or returns. -/
def WorkerPc.stepsLeft : WorkerPc → Nat
  | .running _ => 3
  | .ran _ => 2
  | .ready => 1
  | .waiting | .exited => 0

omit [DecidableEq τ] in
/-- The steps the workers have before them: three more for each queued job. -/
def State.workLeft (s : State threadNum τ ε ρ) : Nat :=
  3 * s.jobs.length + total WorkerPc.stepsLeft s.worker

omit [DecidableEq τ] in
/-- The steps workers take on their own account. -/
def Action.ByWorker : Action threadNum τ ε ρ → Prop
  | .park _ | .dequeue _ _ | .exit _ | .run _ _ _ | .account _ _ _ => True
  | _ => False

/-- A worker's step brings it nearer to its rest, or takes a job out of the queue of a pool that goes on. -/
theorem byWorker_step (hstep : Step s a t) (ha : a.ByWorker) :
    t.stopped = s.stopped ∧ t.destructor = s.destructor ∧
      (total WorkerPc.stepsLeft t.worker + 1 = total WorkerPc.stepsLeft s.worker ∧ t.jobs = s.jobs ∨
        total WorkerPc.stepsLeft t.worker = total WorkerPc.stepsLeft s.worker + 2 ∧
          t.jobs.length + 1 = s.jobs.length ∧ s.stopped = false) := by
  have hmove (w : Fin threadNum.toNat) (pc : WorkerPc) := total_update WorkerPc.stepsLeft s.worker w pc
  cases hstep with
  | @park w hat hempty hgoing =>
    have hw := hmove w .waiting
    rw [hat] at hw
    exact ⟨rfl, rfl, .inl ⟨hw, rfl⟩⟩
  | @dequeue w j rest hat hjobs hgoing =>
    have hw := hmove w (.running j)
    rw [hat] at hw
    refine ⟨rfl, rfl, .inr ⟨Nat.add_right_cancel hw, ?_, hgoing⟩⟩
    rw [hjobs]
    rfl
  | @exit w hat hstopped =>
    have hw := hmove w .exited
    rw [hat] at hw
    exact ⟨rfl, rfl, .inl ⟨hw, rfl⟩⟩
  | @run w j outcome hrunning =>
    have hw := hmove w (.ran j)
    rw [hrunning] at hw
    exact ⟨rfl, rfl, .inl ⟨Nat.add_right_cancel (m := 2) hw, rfl⟩⟩
  | @account w j woken hran hone =>
    have hw := hmove w .ready
    rw [hran] at hw
    exact ⟨rfl, rfl, .inl ⟨Nat.add_right_cancel (m := 1) hw, rfl⟩⟩
  | _ => exact ha.elim

/-- So the work left shrinks by what the step does. -/
theorem workLeft_step (hstep : Step s a t) (ha : a.ByWorker) : t.workLeft + 1 = s.workLeft := by
  obtain ⟨-, -, hkept | htaken⟩ := byWorker_step hstep ha
  · rw [State.workLeft, State.workLeft, hkept.2]
    omega
  · rw [State.workLeft, State.workLeft]
    omega

/-- A worker that has neither parked nor returned can take its next step, if jobs return. -/
theorem worker_moves (outcome : Except ε ρ) (w : Fin threadNum.toNat) (hwaiting : s.worker w ≠ .waiting)
    (hexited : s.worker w ≠ .exited) : ∃ a t, a.ByWorker ∧ Step s a t := by
  cases hpc : s.worker w with
  | ready =>
    cases hstopped : s.stopped with
    | true => exact ⟨.exit w, _, trivial, .exit hpc hstopped⟩
    | false =>
      cases hjobs : s.jobs with
      | nil => exact ⟨.park w, _, trivial, .park hpc hjobs hstopped⟩
      | cons j rest => exact ⟨.dequeue w j, _, trivial, .dequeue hpc hjobs hstopped⟩
  | waiting => exact absurd hpc hwaiting
  | running j => exact ⟨.run w j outcome, _, trivial, .run outcome hpc⟩
  | ran j =>
    obtain ⟨woken, hone⟩ := exists_notifyOne fun u => s.waiter u = .waiting
    exact ⟨.account w j woken, _, trivial, .account woken hpc hone⟩
  | exited => exact absurd hpc hexited

/-! ## The queue is emptied -/

omit [DecidableEq τ] in
/-- The queue is empty and every worker is parked. -/
def Drained (s : State threadNum τ ε ρ) : Prop := s.jobs = [] ∧ ∀ w, s.worker w = .waiting

/-- A pool with a worker that goes on is drained or has a worker that can move. -/
theorem drained_or_moves (hs : Attentive s) (outcome : Except ε ρ) (hworkers : 0 < threadNum.toNat)
    (hgoing : s.stopped = false) (hnot : ¬Drained s) : ∃ a t, a.ByWorker ∧ Step s a t := by
  have hstays (w : Fin threadNum.toNat) : s.worker w ≠ .exited := by
    intro hexited
    cases hgoing.symm.trans (hs.returned w hexited)
  by_cases hparked : ∀ w, s.worker w = .waiting
  · -- all workers are parked, so none is on its way, and the queue must be empty
    have hstaffed := hs.staffed ⟨⟨0, hworkers⟩, hparked _⟩
    have hnone : census AtQueue s.worker = 0 :=
      census_eq_zero_iff.mpr fun w hat => WorkerPc.noConfusion (hat.symm.trans (hparked w))
    rw [hnone] at hstaffed
    exact absurd ⟨List.length_eq_zero_iff.mp (Nat.le_zero.mp hstaffed), hparked⟩ hnot
  · obtain ⟨w, hw⟩ := not_forall.mp hparked
    exact worker_moves outcome w hw (hstays w)

/-- In every run: as long as the pool is not stopped and has a worker, the
workers, left to themselves, empty the queue and park within the work left,
in whatever order they move; and then every job pushed so far has run, and
`Wait` returns. -/
theorem run_drains (outcome : Except ε ρ) (hrun : Run Step (State.init threadNum τ ε ρ) history s)
    (hworkers : 0 < threadNum.toNat) (hgoing : s.stopped = false) :
    ComesToRest Step Action.ByWorker Drained s s.workLeft ∧
      ∀ later t, Quietly Step Action.ByWorker s later t → Drained t → t.waitDone ∧
        ∀ j ∈ order Action.pushed? history, j ∈ order Action.ran? (history ++ later) := by
  constructor
  · refine comesToRest_of_potential (fun s => Attentive s ∧ s.stopped = false) State.workLeft
      ?_ ?_ ?_ ⟨run_attentive hrun, hgoing⟩
    · intro s a t hs ha hstep
      exact ⟨attentive_step hs.1 hstep, (byWorker_step hstep ha).1.trans hs.2⟩
    · intro s a t hs ha hstep
      have hone := workLeft_step hstep ha
      omega
    · intro s hs hnot
      exact drained_or_moves hs.1 outcome hworkers hs.2 hnot
  · intro later t hquiet hdrained
    have hlong := hrun.append hquiet.1
    have hidle := run_idle hlong
    have hnone : census Busy t.worker = 0 :=
      census_eq_zero_iff.mpr fun w hbusy => hbusy (congrArg WorkerPc.job? (hdrained.2 w))
    rw [hnone] at hidle
    have hall : t.idleNum = threadNum := UInt64.toNat_inj.mp hidle
    refine ⟨.inr ⟨hall, hdrained.1⟩, fun j hj => (run_allFinished hlong hdrained.1 hall ?_).1⟩
    rw [order, labels, List.map_append, List.filterMap_append]
    exact List.mem_append_left _ hj

/-! ## The destructor returns -/

omit [DecidableEq τ] in
/-- The steps that finish a stopped pool. -/
def Action.WindsUp (a : Action threadNum τ ε ρ) : Prop := a.ByWorker ∨ a = .destroy

omit [DecidableEq τ] in
/-- The steps left to a stopped pool: what its workers have in hand, and the destruction. -/
def State.closingSteps (s : State threadNum τ ε ρ) : Nat :=
  total WorkerPc.stepsLeft s.worker + if s.destructor = .destroyed then 0 else 1

/-- The destructor has been called exactly when `stopped_` is set. -/
theorem run_stopped_iff (hrun : Run Step (State.init threadNum τ ε ρ) history s) :
    s.stopped = true ↔ s.destructor ≠ .notStarted := by
  refine hrun.invariant (I := fun s => s.stopped = true ↔ s.destructor ≠ .notStarted) ?_ ?_
  · exact iff_of_false Bool.false_ne_true fun hne => hne rfl
  · intro s a t hI hstep
    cases hstep with
    | stop hfirst => exact iff_of_true rfl Destructor.noConfusion
    | destroy hjoining hjoined =>
      have hstarted : s.destructor ≠ .notStarted := by
        rw [hjoining]
        decide
      exact iff_of_true (hI.mpr hstarted) Destructor.noConfusion
    | _ => exact hI

omit [DecidableEq τ] in
/-- What is known of a pool behind the destructor's first step. -/
structure Closing (s : State threadNum τ ε ρ) : Prop where
  /-- Its workers are not parked. -/
  attentive : Attentive s
  /-- `stopped_` is set. -/
  stopped : s.stopped = true
  /-- The destructor is joining, or has returned. -/
  started : s.destructor ≠ .notStarted

/-- A closing pool keeps closing. -/
theorem closing_step (hs : Closing s) (ha : a.WindsUp) (hstep : Step s a t) : Closing t := by
  refine ⟨attentive_step hs.attentive hstep, stopped_step hstep (.inl hs.stopped), ?_⟩
  rcases ha with ha | rfl
  · rw [(byWorker_step hstep ha).2.1]
    exact hs.started
  · cases hstep with
    | destroy hjoining hjoined => exact Destructor.noConfusion

/-- Each step of a closing pool is one of those left. -/
theorem closingSteps_step (hs : Closing s) (ha : a.WindsUp) (hstep : Step s a t) :
    t.closingSteps + 1 = s.closingSteps := by
  rcases ha with ha | rfl
  · obtain ⟨-, hdestructor, ⟨hkept, -⟩ | ⟨-, -, hgoing⟩⟩ := byWorker_step hstep ha
    · rw [State.closingSteps, State.closingSteps, hdestructor]
      omega
    · cases hs.stopped.symm.trans hgoing
  · cases hstep with
    | destroy hjoining hjoined =>
      have hnot : s.destructor ≠ .destroyed := by
        rw [hjoining]
        decide
      rw [State.closingSteps, State.closingSteps, if_neg hnot]
      rfl

/-- A closing pool is destroyed or can take a step: either a worker has not returned, or all are joined. -/
theorem closing_moves (hs : Closing s) (outcome : Except ε ρ) (hnot : s.destructor ≠ .destroyed) :
    ∃ a t, a.WindsUp ∧ Step s a t := by
  by_cases hjoined : ∀ w, s.worker w = .exited
  · have hjoining : s.destructor = .joining := by
      have hstarted := hs.started
      cases hdestructor : s.destructor with
      | notStarted => exact absurd hdestructor hstarted
      | joining => rfl
      | destroyed => exact absurd hdestructor hnot
    exact ⟨.destroy, _, .inr rfl, .destroy hjoining hjoined⟩
  · obtain ⟨w, hw⟩ := not_forall.mp hjoined
    have hawake : s.worker w ≠ .waiting := by
      intro hwaiting
      cases hs.stopped.symm.trans (hs.attentive.parked w hwaiting)
    obtain ⟨a, t, ha, hstep⟩ := worker_moves outcome w hawake hw
    exact ⟨a, t, .inl ha, hstep⟩

/-- In every run: once the destructor has set `stopped_`, workers and
destructor, left to themselves, end in a destroyed pool after the steps the
workers have in hand and one more, in whatever order they move, and whatever
is still queued; and then the future of every pushed job is settled. -/
theorem run_destructor_returns (outcome : Except ε ρ) (hrun : Run Step (State.init threadNum τ ε ρ) history s)
    (hstop : .stop ∈ labels history) :
    ComesToRest Step Action.WindsUp (fun t => t.destructor = .destroyed) s s.closingSteps ∧
      ∀ later t, Quietly Step Action.WindsUp s later t → t.destructor = .destroyed →
        ∀ j ∈ order Action.pushed? history, Settles (history ++ later) t j := by
  have hstopped := run_stopped hrun hstop
  have hclosing : Closing s := ⟨run_attentive hrun, hstopped, (run_stopped_iff hrun).mp hstopped⟩
  constructor
  · refine comesToRest_of_potential Closing State.closingSteps ?_ ?_ ?_ hclosing
    · exact fun s a t hs ha hstep => closing_step hs ha hstep
    · intro s a t hs ha hstep
      have hone := closingSteps_step hs ha hstep
      omega
    · exact fun s hs hnot => closing_moves hs outcome hnot
  · intro later t hquiet hdestroyed j hj
    have hlong := hrun.append hquiet.1
    refine (run_shutDown hlong).settled hdestroyed j ?_
    rw [order, labels, List.map_append, List.filterMap_append]
    exact List.mem_append_left _ hj

/-! ## The work of a whole run -/

omit [DecidableEq τ] in
instance (a : Action threadNum τ ε ρ) : Decidable a.ByWorker := by
  cases a <;> first | exact .isTrue trivial | exact .isFalse id

omit [DecidableEq τ] in
/-- One for each step of a worker. -/
def Action.workerSteps (a : Action threadNum τ ε ρ) : Nat := if a.ByWorker then 1 else 0

omit [DecidableEq τ] in
/-- The steps a push or a spurious wake-up gives the workers to do. -/
def Action.stimulus : Action threadNum τ ε ρ → Nat
  | .push _ _ => 4
  | .spuriousWorker _ => 1
  | _ => 0

omit [DecidableEq τ] in
/-- The work left, and one look at `stopped_` for each worker. -/
def State.potential (s : State threadNum τ ε ρ) : Nat :=
  s.workLeft + if s.destructor = .notStarted then threadNum.toNat else 0

omit [DecidableEq τ] in
/-- Work that comes in without touching the destructor. -/
theorem potential_le {k : Nat} (hdestructor : t.destructor = s.destructor) (hwork : t.workLeft ≤ s.workLeft + k) :
    t.potential ≤ s.potential + k := by
  rw [State.potential, State.potential, hdestructor]
  omega

/-- Every step is paid for. -/
theorem potential_step (hstep : Step s a t) :
    t.potential + a.workerSteps ≤ s.potential + a.stimulus := by
  by_cases ha : a.ByWorker
  · have hone := workLeft_step hstep ha
    have hdestructor := (byWorker_step hstep ha).2.1
    rw [State.potential, State.potential, Action.workerSteps, if_pos ha, hdestructor]
    omega
  rw [Action.workerSteps, if_neg ha]
  have hresumed (w : Fin threadNum.toNat) :
      total WorkerPc.stepsLeft (Function.update s.worker w .ready) ≤ total WorkerPc.stepsLeft s.worker + 1 :=
    Nat.le_trans (Nat.le_add_right _ _) (Nat.le_of_eq (total_update WorkerPc.stepsLeft s.worker w .ready))
  cases hstep with
  | push woken halive hone =>
    refine potential_le rfl ?_
    change 3 * (s.jobs ++ [s.nextJob]).length + total WorkerPc.stepsLeft (resumeOne s.worker woken .ready) ≤
      3 * s.jobs.length + total WorkerPc.stepsLeft s.worker + 4
    rw [List.length_append, List.length_singleton]
    cases woken with
    | none =>
      change 3 * (s.jobs.length + 1) + total WorkerPc.stepsLeft s.worker ≤ _
      omega
    | some w =>
      have hw := hresumed w
      change 3 * (s.jobs.length + 1) + total WorkerPc.stepsLeft (Function.update s.worker w .ready) ≤ _
      omega
  | stop hfirst =>
    have hone (w : Fin threadNum.toNat) :
        (resumeAll s.worker .waiting .ready w).stepsLeft ≤ (s.worker w).stepsLeft + 1 := by
      unfold resumeAll
      split
      · exact Nat.le_add_left _ _
      · exact Nat.le_succ _
    have hworkers := total_le_add_card _ hone
    rw [Fintype.card_fin] at hworkers
    change 3 * s.jobs.length + total WorkerPc.stepsLeft (resumeAll s.worker .waiting .ready) + 0 + 0 ≤ _
    rw [State.potential, State.workLeft, if_pos hfirst]
    omega
  | destroy hjoining hjoined =>
    change s.workLeft + 0 + 0 ≤ _
    rw [State.potential]
    omega
  | @spuriousWorker w hwaiting =>
    refine potential_le rfl ?_
    change 3 * s.jobs.length + total WorkerPc.stepsLeft (Function.update s.worker w .ready) ≤
      3 * s.jobs.length + total WorkerPc.stepsLeft s.worker + 1
    have hw := hresumed w
    omega
  | waitBlocks halive hchecks hblocks => exact Nat.le_refl _
  | waitReturns halive hchecks hreturns => exact Nat.le_refl _
  | spuriousWaiter halive hwaiting => exact Nat.le_refl _
  | park hat hempty hgoing => exact absurd trivial ha
  | dequeue hat hjobs hgoing => exact absurd trivial ha
  | exit hat hstopped => exact absurd trivial ha
  | run outcome hrunning => exact absurd trivial ha
  | account woken hran hone => exact absurd trivial ha

/-- In every run the workers take at most four steps for each push, one for
each spurious wake-up and two for each worker. -/
theorem run_work (hrun : Run Step (State.init threadNum τ ε ρ) history s) :
    spent Action.workerSteps history + s.workLeft ≤ 2 * threadNum.toNat + spent Action.stimulus history := by
  have hpaid := hrun.amortize State.potential Action.workerSteps Action.stimulus
    fun _ _ _ _ _ hstep => potential_step hstep
  have hstart : (State.init threadNum τ ε ρ).potential = 2 * threadNum.toNat := by
    have hready : total WorkerPc.stepsLeft (State.init threadNum τ ε ρ).worker = threadNum.toNat := by
      change ∑ _w : Fin threadNum.toNat, 1 = threadNum.toNat
      rw [← Finset.card_eq_sum_ones, Finset.card_univ, Fintype.card_fin]
    rw [State.potential, State.workLeft, hready]
    change 3 * 0 + threadNum.toNat + threadNum.toNat = _
    omega
  have hsplit : s.workLeft ≤ s.potential := Nat.le_add_right _ _
  omega

end

/-- Two workers park and a push wakes one of them: the other one may sleep on. -/
theorem run_attentive_two :
    ∃ (history : List (Move (State 2 Unit Unit Nat) (Action 2 Unit Unit Nat))) (s : State 2 Unit Unit Nat),
      Run Step (State.init 2 Unit Unit Nat) history s ∧ s.worker ⟨1, by decide⟩ = .waiting ∧ s.jobs = [0] ∧
      1 ≤ census AtQueue s.worker := by
  have start : Run Step (State.init 2 Unit Unit Nat) [] _ := .nil
  have parked := start.snoc (.park (w := ⟨0, by decide⟩) rfl rfl rfl)
  have parked := parked.snoc (.park (w := ⟨1, by decide⟩) rfl rfl rfl)
  have pushed := parked.snoc (.push (some (⟨0, by decide⟩ : Fin (UInt64.toNat 2))) Destructor.noConfusion (by decide))
  exact ⟨_, _, pushed, rfl, rfl, (run_attentive pushed).staffed ⟨⟨1, by decide⟩, rfl⟩⟩

/-- One worker is left alone with one job and runs it. -/
theorem run_drains_one :
    ∃ (history : List (Move (State 1 Unit Unit Nat) (Action 1 Unit Unit Nat))) (t : State 1 Unit Unit Nat),
      Run Step (State.init 1 Unit Unit Nat) history t ∧ Drained t ∧ 0 ∈ order Action.ran? history ∧
      t.waitDone := by
  have start : Run Step (State.init 1 Unit Unit Nat) [] _ := .nil
  have pushed := start.snoc (.push none Destructor.noConfusion (by decide))
  obtain ⟨hrest, hdrained⟩ := run_drains (.ok 7) pushed (by decide) rfl
  obtain ⟨later, t, hquiet, ht⟩ := hrest.arrives
  obtain ⟨hdone, hran⟩ := hdrained later t hquiet ht
  exact ⟨_, t, pushed.append hquiet.1, ht, hran 0 (by decide), hdone⟩

/-- A pool that is stopped with a job in its queue is destroyed, and the job's future is settled. -/
theorem run_destructor_returns_queued :
    ∃ (history : List (Move (State 1 Unit Unit Nat) (Action 1 Unit Unit Nat))) (t : State 1 Unit Unit Nat),
      Run Step (State.init 1 Unit Unit Nat) history t ∧ 0 ∈ order Action.pushed? history ∧
      t.destructor = .destroyed ∧ Settles history t 0 := by
  have start : Run Step (State.init 1 Unit Unit Nat) [] _ := .nil
  have pushed := start.snoc (.push none Destructor.noConfusion (by decide))
  have stopped := pushed.snoc (.stop rfl)
  obtain ⟨hrest, hsettled⟩ := run_destructor_returns (.ok 7) stopped (List.mem_cons_of_mem _ List.mem_cons_self)
  obtain ⟨later, t, hquiet, ht⟩ := hrest.arrives
  refine ⟨_, t, stopped.append hquiet.1, ?_, ht, hsettled later t hquiet ht 0 (by decide)⟩
  rw [order, labels, List.map_append, List.filterMap_append]
  exact List.mem_append_left _ (by decide)

/-- Four steps for one push: the worker takes the job, runs it, accounts for it and parks. -/
theorem run_work_one :
    ∃ (history : List (Move (State 1 Unit Unit Nat) (Action 1 Unit Unit Nat))) (s : State 1 Unit Unit Nat),
      Run Step (State.init 1 Unit Unit Nat) history s ∧ spent Action.workerSteps history = 4 ∧
      spent Action.workerSteps history + s.workLeft ≤ 6 := by
  have start : Run Step (State.init 1 Unit Unit Nat) [] _ := .nil
  have pushed := start.snoc (.push none Destructor.noConfusion (by decide))
  have taken := pushed.snoc (.dequeue (w := onlyWorker) rfl rfl rfl)
  have ran := taken.snoc (.run (w := onlyWorker) (.ok 7) rfl)
  have accounted := ran.snoc (.account (w := onlyWorker) none rfl (by decide))
  have parked := accounted.snoc (.park (w := onlyWorker) rfl rfl rfl)
  exact ⟨_, _, parked, rfl, run_work parked⟩

end CurlHttpfs.ThreadPool
