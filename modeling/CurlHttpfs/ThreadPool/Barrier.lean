import CurlHttpfs.ThreadPool.Pool

/-!
# `Wait` as a barrier

The counter of idle workers and the queue are written in separate critical
sections with the job between them. What ties them together is the position
of each worker: a worker holds a job from the section that takes it to the
section that accounts for it. Jobs pass from the pushes through the queue and
the workers' hands to the finished ones in one order and one at a time.
-/

namespace CurlHttpfs.ThreadPool

open Transition

/-! ## Order of events -/

section

variable {threadNum : UInt64} {τ ε ρ : Type*}

/-- The job a step pushes. -/
def Action.pushed? : Action threadNum τ ε ρ → Option JobId
  | .push j _ => some j
  | _ => none

/-- The job a step dequeues. -/
def Action.dequeued? : Action threadNum τ ε ρ → Option JobId
  | .dequeue _ j => some j
  | _ => none

/-- The job a step runs. -/
def Action.ran? : Action threadNum τ ε ρ → Option JobId
  | .run _ j _ => some j
  | _ => none

/-- The job a step accounts for. -/
def Action.accounted? : Action threadNum τ ε ρ → Option JobId
  | .account _ j _ => some j
  | _ => none

/-- The jobs of the steps of one kind, oldest first. -/
def order (kind : Action threadNum τ ε ρ → Option JobId)
    (history : List (Move (State threadNum τ ε ρ) (Action threadNum τ ε ρ))) : List JobId :=
  (labels history).filterMap kind

theorem order_snoc (kind : Action threadNum τ ε ρ → Option JobId)
    (history : List (Move (State threadNum τ ε ρ) (Action threadNum τ ε ρ)))
    (m : Move (State threadNum τ ε ρ) (Action threadNum τ ε ρ)) :
    order kind (history ++ [m]) = order kind history ++ (kind m.label).toList := by
  rw [order, labels_snoc, List.filterMap_append]
  cases h : kind m.label <;> simp [order, h]

variable [DecidableEq τ] {history : List (Move (State threadNum τ ε ρ) (Action threadNum τ ε ρ))}
  {s t : State threadNum τ ε ρ} {a : Action threadNum τ ε ρ}

/-- Jobs are named in the order of the pushes. -/
theorem run_pushed (hrun : Run Step (State.init threadNum τ ε ρ) history s) :
    order Action.pushed? history = List.range s.nextJob := by
  refine hrun.induct (I := fun history s => order Action.pushed? history = List.range s.nextJob) rfl ?_
  intro history s a t _ hI hstep
  rw [order_snoc, hI]
  cases hstep with
  | push woken halive hone => exact List.range_succ.symm
  | _ => exact List.append_nil _

/-- What was pushed was dequeued, in that order, or is in the queue. -/
theorem run_queue (hrun : Run Step (State.init threadNum τ ε ρ) history s) :
    order Action.pushed? history = order Action.dequeued? history ++ s.jobs := by
  refine hrun.induct (I := fun history s =>
    order Action.pushed? history = order Action.dequeued? history ++ s.jobs) rfl ?_
  intro history s a t _ hI hstep
  rw [order_snoc, order_snoc, hI]
  cases hstep with
  | push woken halive hone => simp only [Action.pushed?, Action.dequeued?, State.push, Option.toList_some,
      Option.toList_none, List.append_nil, List.append_assoc]
  | dequeue hready hjobs hgoing =>
    simp only [Action.pushed?, Action.dequeued?, State.dequeue, hjobs, Option.toList_some,
      Option.toList_none, List.append_nil, List.append_assoc, List.singleton_append]
  | _ => simp only [Action.pushed?, Action.dequeued?, State.run, State.account, State.stop, State.destroy,
      Option.toList_none, List.append_nil]

/-! ## Jobs in hand -/

/-- What a step does to the workers, up to positions without a job, and to the counter. -/
theorem worker_step (hstep : Step s a t) :
    (∃ w j, a = .dequeue w j ∧ s.worker w = .ready ∧
      t.worker = Function.update s.worker w (.running j) ∧ t.idleNum = s.idleNum - 1) ∨
    (∃ w j outcome, a = .run w j outcome ∧ s.worker w = .running j ∧
      t.worker = Function.update s.worker w (.ran j) ∧ t.idleNum = s.idleNum) ∨
    (∃ w j woken, a = .account w j woken ∧ s.worker w = .ran j ∧
      t.worker = Function.update s.worker w .ready ∧ t.idleNum = s.idleNum + 1) ∨
    (a.dequeued? = none ∧ a.ran? = none ∧ a.accounted? = none ∧ t.idleNum = s.idleNum ∧
      ∀ (p : WorkerPc → Prop) [DecidablePred p], (∀ pc, pc.job? = none → ¬p pc) →
        census p t.worker = census p s.worker) := by
  cases hstep with
  | dequeue hready hjobs hgoing => exact .inl ⟨_, _, rfl, hready, rfl, rfl⟩
  | run outcome hrunning => exact .inr (.inl ⟨_, _, outcome, rfl, hrunning, rfl, rfl⟩)
  | account woken hran hone => exact .inr (.inr (.inl ⟨_, _, _, rfl, hran, rfl, rfl⟩))
  | push woken halive hone =>
    refine .inr (.inr (.inr ⟨rfl, rfl, rfl, rfl, fun p _ hp => ?_⟩))
    exact census_resumeOne hone (hp .waiting rfl) (hp .ready rfl)
  | park hready hempty hgoing =>
    refine .inr (.inr (.inr ⟨rfl, rfl, rfl, rfl, fun p _ hp => ?_⟩))
    exact census_stay (iff_of_false (hp .waiting rfl) (hready ▸ hp .ready rfl))
  | exit hready hstopped =>
    refine .inr (.inr (.inr ⟨rfl, rfl, rfl, rfl, fun p _ hp => ?_⟩))
    exact census_stay (iff_of_false (hp .exited rfl) (hready ▸ hp .ready rfl))
  | stop hfirst =>
    refine .inr (.inr (.inr ⟨rfl, rfl, rfl, rfl, fun p _ hp => ?_⟩))
    exact census_resumeAll (hp .waiting rfl) (hp .ready rfl)
  | spuriousWorker hwaiting =>
    refine .inr (.inr (.inr ⟨rfl, rfl, rfl, rfl, fun p _ hp => ?_⟩))
    exact census_stay (iff_of_false (hp .ready rfl) (hwaiting ▸ hp .waiting rfl))
  | _ => exact .inr (.inr (.inr ⟨rfl, rfl, rfl, rfl, fun _ _ _ => rfl⟩))

/-- The worker has the job in hand. -/
def Holds (j : JobId) (pc : WorkerPc) : Prop := pc.job? = some j

instance (j : JobId) : DecidablePred (Holds j) := fun pc => inferInstanceAs (Decidable (pc.job? = some j))

/-- The worker has some job in hand. -/
def Busy (pc : WorkerPc) : Prop := pc.job? ≠ none

instance : DecidablePred Busy := fun pc => inferInstanceAs (Decidable (pc.job? ≠ none))

/-- The worker has run the job and not accounted for it. -/
def HasRun (j : JobId) (pc : WorkerPc) : Prop := pc = .ran j

instance (j : JobId) : DecidablePred (HasRun j) := fun pc => inferInstanceAs (Decidable (pc = .ran j))

/-- No position without a job has the job in hand. -/
theorem not_holds {j : JobId} {pc : WorkerPc} (h : pc.job? = none) : ¬Holds j pc :=
  fun hholds => nomatch h.symm.trans hholds

/-- Whoever has run a job has it in hand. -/
theorem HasRun.holds {j : JobId} {pc : WorkerPc} (h : HasRun j pc) : Holds j pc := congrArg WorkerPc.job? h

/-- Whoever has a job in hand is busy. -/
theorem Holds.busy {j : JobId} {pc : WorkerPc} (h : Holds j pc) : Busy pc := by
  rw [Busy, h]
  nofun

/-- A position with one job counts for that job. -/
theorem holds_count {j j' : JobId} {pc : WorkerPc} (h : pc.job? = some j') :
    (if Holds j pc then 1 else 0) = [j'].count j := by
  rw [List.count_singleton]
  simp only [Holds, h, Option.some.injEq, beq_iff_eq]

theorem hasRun_count (j j' : JobId) : (if HasRun j (.ran j') then 1 else 0) = [j'].count j := by
  rw [List.count_singleton]
  simp only [HasRun, WorkerPc.ran.injEq, beq_iff_eq]

/-- What a step moves through the workers' hands, from the queue to the accounted jobs. -/
theorem holds_step (hstep : Step s a t) (j : JobId) :
    census (Holds j) t.worker + a.accounted?.toList.count j =
      census (Holds j) s.worker + a.dequeued?.toList.count j := by
  rcases worker_step hstep with ⟨w, j', rfl, hready, hworker, -⟩ | ⟨w, j', outcome, rfl, hrunning, hworker, -⟩ |
    ⟨w, j', woken, rfl, hran, hworker, -⟩ | ⟨hdequeued, -, haccounted, -, hcensus⟩
  · have hmove := census_update (p := Holds j) s.worker w (.running j')
    have hout : ¬Holds j .ready := not_holds rfl
    rw [hready, ← hworker, if_neg hout, holds_count rfl] at hmove
    exact hmove
  · have hmove := census_update (p := Holds j) s.worker w (.ran j')
    rw [hrunning, ← hworker] at hmove
    exact Nat.add_right_cancel hmove
  · have hmove := census_update (p := Holds j) s.worker w .ready
    have hout : ¬Holds j .ready := not_holds rfl
    rw [hran, ← hworker, if_neg hout, holds_count rfl] at hmove
    exact hmove
  · rw [hdequeued, haccounted, hcensus (Holds j) fun pc hnone => not_holds hnone]

/-- What a step moves from the runs to the accounted jobs. -/
theorem hasRun_step (hstep : Step s a t) (j : JobId) :
    census (HasRun j) t.worker + a.accounted?.toList.count j =
      census (HasRun j) s.worker + a.ran?.toList.count j := by
  rcases worker_step hstep with ⟨w, j', rfl, hready, hworker, -⟩ | ⟨w, j', outcome, rfl, hrunning, hworker, -⟩ |
    ⟨w, j', woken, rfl, hran, hworker, -⟩ | ⟨-, hran, haccounted, -, hcensus⟩
  · have hmove := census_update (p := HasRun j) s.worker w (.running j')
    have hbefore : ¬HasRun j .ready := nofun
    have hbehind : ¬HasRun j (.running j') := nofun
    rw [hready, ← hworker, if_neg hbefore, if_neg hbehind] at hmove
    exact hmove
  · have hmove := census_update (p := HasRun j) s.worker w (.ran j')
    have hbefore : ¬HasRun j (.running j') := nofun
    rw [hrunning, ← hworker, if_neg hbefore, hasRun_count] at hmove
    exact hmove
  · have hmove := census_update (p := HasRun j) s.worker w .ready
    have hbehind : ¬HasRun j .ready := nofun
    rw [hran, ← hworker, if_neg hbehind, hasRun_count] at hmove
    exact hmove
  · rw [hran, haccounted, hcensus (HasRun j) fun pc hnone hran => not_holds hnone hran.holds]

/-- Along a run, what came in is still there or went out. -/
theorem run_flow {inside : JobId → WorkerPc → Prop} [∀ j, DecidablePred (inside j)]
    {comesIn : Action threadNum τ ε ρ → Option JobId} (hready : ∀ j, ¬inside j .ready)
    (hflow : ∀ (s t : State threadNum τ ε ρ) a, Step s a t → ∀ j,
      census (inside j) t.worker + a.accounted?.toList.count j =
        census (inside j) s.worker + (comesIn a).toList.count j)
    (hrun : Run Step (State.init threadNum τ ε ρ) history s) (j : JobId) :
    (order comesIn history).count j =
      census (inside j) s.worker + (order Action.accounted? history).count j := by
  refine hrun.induct (I := fun history s => (order comesIn history).count j =
    census (inside j) s.worker + (order Action.accounted? history).count j) ?_ ?_
  · have hnone : census (inside j) (State.init threadNum τ ε ρ).worker = 0 :=
      census_eq_zero_iff.mpr fun _ => hready j
    rw [hnone]
    rfl
  · intro history s a t _ hI hstep
    have hmoved := hflow s t a hstep j
    rw [order_snoc, order_snoc, List.count_append, List.count_append, hI]
    dsimp only
    omega

/-- A dequeued job is in the hands of a worker or accounted for. -/
theorem run_inHand (hrun : Run Step (State.init threadNum τ ε ρ) history s) (j : JobId) :
    (order Action.dequeued? history).count j =
      census (Holds j) s.worker + (order Action.accounted? history).count j :=
  run_flow (fun _ => not_holds rfl) (fun _ _ _ hstep => holds_step hstep) hrun j

/-- A job has run when it is accounted for or its worker is about to account for it. -/
theorem run_hasRun (hrun : Run Step (State.init threadNum τ ε ρ) history s) (j : JobId) :
    (order Action.ran? history).count j =
      census (HasRun j) s.worker + (order Action.accounted? history).count j :=
  run_flow (fun _ => nofun) (fun _ _ _ hstep => hasRun_step hstep) hrun j

/-- Every pushed job is queued, in a worker's hands or accounted for, once in all. -/
theorem run_conserved (hrun : Run Step (State.init threadNum τ ε ρ) history s) (j : JobId) :
    s.jobs.count j + census (Holds j) s.worker + (order Action.accounted? history).count j =
      (order Action.pushed? history).count j := by
  have hinHand := run_inHand hrun j
  rw [run_queue hrun, List.count_append]
  omega

/-- A job is pushed once. -/
theorem run_pushed_nodup (hrun : Run Step (State.init threadNum τ ε ρ) history s) :
    (order Action.pushed? history).Nodup := run_pushed hrun ▸ List.nodup_range

/-! ## The counter -/

/-- The counter of idle workers and the workers with a job add up to the pool:
counting down starts above zero and counting up ends at most at the pool's size. -/
theorem run_idle (hrun : Run Step (State.init threadNum τ ε ρ) history s) :
    s.idleNum.toNat + census Busy s.worker = threadNum.toNat := by
  refine hrun.invariant (I := fun s => s.idleNum.toNat + census Busy s.worker = threadNum.toNat) ?_ ?_
  · have hnone : census Busy (State.init threadNum τ ε ρ).worker = 0 :=
      census_eq_zero_iff.mpr fun _ hbusy => hbusy rfl
    rw [hnone]
    rfl
  · intro s a t hI hstep
    have hsize := threadNum.toNat_lt
    rcases worker_step hstep with ⟨w, j, rfl, hready, hworker, hidle⟩ |
      ⟨w, j, outcome, rfl, hrunning, hworker, hidle⟩ | ⟨w, j, woken, rfl, hran, hworker, hidle⟩ |
      ⟨-, -, -, hidle, hcensus⟩
    · -- the worker that takes the job is idle, so the counter is positive
      have hout : ¬Busy (s.worker w) := hready ▸ fun hbusy => hbusy rfl
      have hroom := census_lt hout
      rw [Fintype.card_fin] at hroom
      have hone : (1 : UInt64) ≤ s.idleNum := by
        rw [UInt64.le_iff_toNat_le, UInt64.toNat_one]
        omega
      have hin : Busy (.running j) := Holds.busy (j := j) rfl
      rw [hidle, UInt64.toNat_sub_of_le _ _ hone, hworker, census_enter hout hin, UInt64.toNat_one]
      omega
    · have hbusy : Busy (s.worker w) := hrunning ▸ Holds.busy (j := j) rfl
      have hbehind : Busy (.ran j) := Holds.busy (j := j) rfl
      rw [hidle, hworker, census_stay (iff_of_true hbehind hbusy)]
      exact hI
    · have hbusy : Busy (s.worker w) := hran ▸ Holds.busy (j := j) rfl
      have hready : ¬Busy .ready := fun hbusy => hbusy rfl
      have hleave := census_leave hbusy hready
      rw [hidle, UInt64.toNat_add, hworker, UInt64.toNat_one]
      omega
    · rw [hidle, hcensus Busy fun pc hnone hbusy => hbusy hnone]
      exact hI

/-- When the counter shows the whole pool, no worker has a job in hand. -/
theorem run_allIdle (hrun : Run Step (State.init threadNum τ ε ρ) history s) (hidle : s.idleNum = threadNum)
    (w : Fin threadNum.toNat) : (s.worker w).job? = none := by
  have hsum := run_idle hrun
  rw [hidle] at hsum
  have hnone : census Busy s.worker = 0 := by omega
  exact not_not.mp (census_eq_zero_iff.mp hnone w)

/-! ## Futures -/

/-- A future that is ready holds what a run of its job returned or threw. -/
theorem run_ready (hrun : Run Step (State.init threadNum τ ε ρ) history s) {j : JobId} {outcome : Except ε ρ}
    (hready : s.future j = .ready outcome) : ∃ w, .run w j outcome ∈ labels history := by
  refine hrun.induct (I := fun history (s : State threadNum τ ε ρ) =>
    s.future j = .ready outcome → ∃ w, .run w j outcome ∈ labels history) ?_ ?_ hready
  · intro hnone
    cases hnone
  intro history s a t _ hI hstep hready
  have hold (hbefore : s.future j = .ready outcome) :
      ∃ w, .run w j outcome ∈ labels (history ++ [⟨s, a, t⟩]) := by
    obtain ⟨w, hm⟩ := hI hbefore
    rw [labels_snoc]
    exact ⟨w, List.mem_append_left _ hm⟩
  cases hstep with
  | @run w j' outcome' hrunning =>
    by_cases he : j = j'
    · subst he
      change Function.update s.future j (.ready outcome') j = _ at hready
      rw [Function.update_self] at hready
      obtain rfl := Future.ready.inj hready
      rw [labels_snoc]
      exact ⟨w, List.mem_append_right _ (List.mem_singleton_self _)⟩
    · exact hold ((Function.update_of_ne he _ _).symm.trans hready)
  | destroy hjoining hjoined =>
    change (if j ∈ s.jobs then Future.brokenPromise else s.future j) = _ at hready
    split at hready
    · cases hready
    · exact hold hready
  | _ => exact hold hready

/-- A queued job has not run. -/
theorem run_queued (hrun : Run Step (State.init threadNum τ ε ρ) history s) {j : JobId} (hj : j ∈ s.jobs) :
    j ∉ order Action.ran? history := by
  have hone := run_conserved hrun j
  have hran := run_hasRun hrun j
  have hle := List.nodup_iff_count_le_one.mp (run_pushed_nodup hrun) j
  have hcount := List.count_pos_iff.mpr hj
  have hnone : census (Holds j) s.worker = 0 := by omega
  have hbehind : census (HasRun j) s.worker = 0 :=
    census_eq_zero_iff.mpr fun w hw => census_eq_zero_iff.mp hnone w hw.holds
  rw [← List.count_eq_zero]
  omega

/-- The future of a job that ran is ready. -/
theorem run_ran (hrun : Run Step (State.init threadNum τ ε ρ) history s) {j : JobId}
    (hran : j ∈ order Action.ran? history) : ∃ outcome, s.future j = .ready outcome := by
  refine hrun.induct (I := fun history s => j ∈ order Action.ran? history → ∃ outcome, s.future j = .ready outcome)
    (fun hnil => absurd hnil List.not_mem_nil) ?_ hran
  intro history s a t hpast hI hstep hran
  rw [order_snoc] at hran
  cases hstep with
  | @run w j' outcome hrunning =>
    by_cases he : j = j'
    · exact ⟨outcome, he ▸ Function.update_self _ _ _⟩
    · have hbefore : j ∈ order Action.ran? history :=
        (List.mem_append.mp hran).resolve_right fun hm => he (List.mem_singleton.mp hm)
      obtain ⟨outcome', hready⟩ := hI hbefore
      exact ⟨outcome', (Function.update_of_ne he _ _).trans hready⟩
  | destroy hjoining hjoined =>
    have hbefore := (List.mem_append.mp hran).resolve_right List.not_mem_nil
    obtain ⟨outcome, hready⟩ := hI hbefore
    have hnot : j ∉ s.jobs := fun hj => run_queued hpast hj hbefore
    exact ⟨outcome, (if_neg hnot).trans hready⟩
  | _ => exact hI ((List.mem_append.mp hran).resolve_right List.not_mem_nil)

/-! ## The barrier -/

/-- Where a pushed job can be. -/
inductive Place (threadNum : UInt64) where
  /-- In the queue. -/
  | queued
  /-- In the hands of a worker. -/
  | held (w : Fin threadNum.toNat)
  /-- Finished and accounted for. -/
  | finished

omit [DecidableEq τ] in
/-- The job is in the place. -/
def Located (history : List (Move (State threadNum τ ε ρ) (Action threadNum τ ε ρ)))
    (s : State threadNum τ ε ρ) (j : JobId) : Place threadNum → Prop
  | .queued => j ∈ s.jobs
  | .held w => Holds j (s.worker w)
  | .finished => j ∈ order Action.accounted? history

/-- A pushed job is in exactly one place. -/
theorem run_located (hrun : Run Step (State.init threadNum τ ε ρ) history s) {j : JobId}
    (hj : j ∈ order Action.pushed? history) : ∃! place, Located history s j place := by
  have hone := run_conserved hrun j
  rw [List.count_eq_one_of_mem (run_pushed_nodup hrun) hj] at hone
  have hqueued : Located history s j .queued ↔ 0 < s.jobs.count j := List.count_pos_iff.symm
  have hfinished : Located history s j .finished ↔ 0 < (order Action.accounted? history).count j :=
    List.count_pos_iff.symm
  have hheld : (∃ w, Located history s j (.held w)) ↔ 0 < census (Holds j) s.worker := by
    rw [census_pos_iff]
    rfl
  have hunique {w w' : Fin threadNum.toNat} (hw : Located history s j (.held w))
      (hw' : Located history s j (.held w')) : w = w' := by
    have hle : census (Holds j) s.worker ≤ 1 := by omega
    exact census_unique hle hw hw'
  -- the three summands add up to one
  by_cases hcount : 0 < s.jobs.count j
  · refine ⟨.queued, hqueued.mpr hcount, fun place hplace => ?_⟩
    cases place with
    | queued => rfl
    | held w =>
      have hpos := hheld.mp ⟨w, hplace⟩
      omega
    | finished =>
      have hpos := hfinished.mp hplace
      omega
  · by_cases hcensus : 0 < census (Holds j) s.worker
    · obtain ⟨w, hw⟩ := hheld.mpr hcensus
      refine ⟨.held w, hw, fun place hplace => ?_⟩
      cases place with
      | queued => exact absurd (hqueued.mp hplace) hcount
      | held w' => rw [hunique hplace hw]
      | finished =>
        have hpos := hfinished.mp hplace
        omega
    · have hpos : 0 < (order Action.accounted? history).count j := by omega
      refine ⟨.finished, hfinished.mpr hpos, fun place hplace => ?_⟩
      cases place with
      | queued => exact absurd (hqueued.mp hplace) hcount
      | held w => exact absurd (hheld.mp ⟨w, hplace⟩) hcensus
      | finished => rfl

/-- With the queue empty and every worker idle, every pushed job has run and is accounted for. -/
theorem run_allFinished (hrun : Run Step (State.init threadNum τ ε ρ) history s) (hjobs : s.jobs = [])
    (hidle : s.idleNum = threadNum) {j : JobId} (hj : j ∈ order Action.pushed? history) :
    j ∈ order Action.ran? history ∧ j ∈ order Action.accounted? history := by
  have hnone : census (Holds j) s.worker = 0 :=
    census_eq_zero_iff.mpr fun w => not_holds (run_allIdle hrun hidle w)
  have hone := run_conserved hrun j
  have hran := run_hasRun hrun j
  rw [List.count_eq_one_of_mem (run_pushed_nodup hrun) hj, hnone, hjobs, List.count_nil] at hone
  have haccounted : 0 < (order Action.accounted? history).count j := by omega
  have hpositive : 0 < (order Action.ran? history).count j := by omega
  exact ⟨List.count_pos_iff.mp hpositive, List.count_pos_iff.mp haccounted⟩

/-- What makes `Wait` a barrier. -/
structure Barrier (history : List (Move (State threadNum τ ε ρ) (Action threadNum τ ε ρ)))
    (s : State threadNum τ ε ρ) : Prop where
  /-- `idle_num_` is the number of workers without a job in hand. -/
  idle : s.idleNum.toNat + census Busy s.worker = threadNum.toNat
  /-- Every pushed job is in one place. -/
  located : ∀ j ∈ order Action.pushed? history, ∃! place, Located history s j place
  /-- The queue holds it once. -/
  queued : s.jobs.Nodup
  /-- When `Wait` returns and the pool is not stopped, every job pushed before
  its check has run to completion, and its future holds the outcome. -/
  returned : ∀ earlier m t, earlier ++ [m] <+: history → m.label = .waitReturns t → m.pre.stopped = false →
    ∀ j ∈ order Action.pushed? earlier, j ∈ order Action.ran? earlier ∧ j ∈ order Action.accounted? earlier ∧
      ∃ w outcome, .run w j outcome ∈ labels earlier ∧ m.pre.future j = .ready outcome

/-- `Wait` returns when its predicate holds. -/
theorem waitReturns_done {w : τ} (hstep : Step s (.waitReturns w) t) :
    s.waiter w ≠ .waiting ∧ s.waitDone := by
  cases hstep with
  | waitReturns halive hchecks hreturns => exact ⟨hchecks, hreturns⟩

/-- `Wait` is a barrier in every run of a pool of any size, with any number of
pushing and waiting threads. -/
theorem run_barrier (hrun : Run Step (State.init threadNum τ ε ρ) history s) : Barrier history s := by
  constructor
  · exact run_idle hrun
  · exact fun j hj => run_located hrun hj
  · have hnodup := run_pushed_nodup hrun
    rw [run_queue hrun] at hnodup
    exact hnodup.of_append_right
  · intro earlier m t hle hlabel hgoing j hj
    obtain ⟨hpast, hstep⟩ := hrun.of_prefix hle
    rw [hlabel] at hstep
    rcases (waitReturns_done hstep).2 with hstopped | ⟨hidle, hjobs⟩
    · cases hgoing.symm.trans hstopped
    · obtain ⟨hran, haccounted⟩ := run_allFinished hpast hjobs hidle hj
      obtain ⟨outcome, hready⟩ := run_ran hpast hran
      obtain ⟨w, hm⟩ := run_ready hpast hready
      exact ⟨hran, haccounted, w, outcome, hm, hready⟩

end

/-- One worker runs one job, and a waiting thread returns. -/
theorem barrier_run :
    ∃ (earlier : List (Move (State 1 Unit Unit Nat) (Action 1 Unit Unit Nat))) (m : _),
      Run Step (State.init 1 Unit Unit Nat) (earlier ++ [m]) m.post ∧ m.label = .waitReturns () ∧
      m.pre.stopped = false ∧ 0 ∈ order Action.pushed? earlier := by
  have start : Run Step (State.init 1 Unit Unit Nat) [] _ := .nil
  have pushed := start.snoc (.push none nofun fun _ => nofun)
  have waits := pushed.snoc (.waitBlocks (t := ()) nofun nofun (by decide))
  have taken := waits.snoc (.dequeue (w := onlyWorker) rfl rfl rfl)
  have ran := taken.snoc (.run (w := onlyWorker) (.ok 7) rfl)
  have accounted := ran.snoc (.account (w := onlyWorker) (some ()) rfl rfl)
  have returned := accounted.snoc (.waitReturns (t := ()) nofun nofun (by decide))
  exact ⟨_, _, returned, rfl, rfl, by decide⟩

/-- That job has run when `Wait` returns, and its future is settled. -/
theorem run_barrier_one :
    ∃ (earlier : List (Move (State 1 Unit Unit Nat) (Action 1 Unit Unit Nat))) (m : _),
      Run Step (State.init 1 Unit Unit Nat) (earlier ++ [m]) m.post ∧ m.label = .waitReturns () ∧
      m.pre.stopped = false ∧ 0 ∈ order Action.pushed? earlier ∧ 0 ∈ order Action.ran? earlier ∧
      ∃ outcome, m.pre.future 0 = .ready outcome := by
  obtain ⟨earlier, m, hrun, hlabel, hgoing, hpushed⟩ := barrier_run
  have hbarrier := run_barrier hrun
  obtain ⟨hran, -, w, outcome, -, hready⟩ :=
    hbarrier.returned earlier m () List.prefix_rfl hlabel hgoing 0 hpushed
  exact ⟨earlier, m, hrun, hlabel, hgoing, hpushed, hran, outcome, hready⟩

end CurlHttpfs.ThreadPool
