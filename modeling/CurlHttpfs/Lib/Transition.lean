import Mathlib.Data.List.Basic

/-!
# Labelled runs and their invariants

A system is a step relation between states with a label on each step. A run
keeps its complete history, so a property can speak of every state visited
and of the order of the labels. Invariants are proved for one step and then
hold along whole runs; a run of a detailed system projects to a run of a
coarser one as soon as each detailed step projects to at most one coarse step.
-/

namespace CurlHttpfs.Transition

/-- One executed step with the states around it. -/
structure Move (σ α : Type*) where
  /-- State in which the step is taken. -/
  pre : σ
  /-- The step's label. -/
  label : α
  /-- State the step leads to. -/
  post : σ

section

variable {σ α τ β : Type*}

/-- Runs of a labelled step relation from one start state, latest step last. -/
inductive Run (step : σ → α → σ → Prop) (start : σ) : List (Move σ α) → σ → Prop
  | nil : Run step start [] start
  | snoc {history : List (Move σ α)} {s t : σ} {a : α} (hrun : Run step start history s)
      (hstep : step s a t) : Run step start (history ++ [⟨s, a, t⟩]) t

/-- The labels of a history, oldest first. -/
def labels (history : List (Move σ α)) : List α := history.map Move.label

@[simp] theorem labels_snoc (history : List (Move σ α)) (m : Move σ α) :
    labels (history ++ [m]) = labels history ++ [m.label] := by
  simp only [labels, List.map_append, List.map_cons, List.map_nil]

variable {step : σ → α → σ → Prop} {start : σ}

/-- A run continued by another one. -/
theorem Run.append {history later : List (Move σ α)} {s t : σ} (hrun : Run step start history s)
    (hlater : Run step s later t) : Run step start (history ++ later) t := by
  induction hlater with
  | nil =>
    rw [List.append_nil]
    exact hrun
  | snoc hlater hstep ih =>
    rw [← List.append_assoc]
    exact ih.snoc hstep

/-- A property of history and state that every step keeps holds along every run. -/
theorem Run.induct {I : List (Move σ α) → σ → Prop} (hstart : I [] start)
    (hkeep : ∀ history s a t, Run step start history s → I history s → step s a t →
      I (history ++ [⟨s, a, t⟩]) t)
    {history : List (Move σ α)} {s : σ} (hrun : Run step start history s) : I history s := by
  induction hrun with
  | nil => exact hstart
  | snoc hrun hstep ih => exact hkeep _ _ _ _ hrun ih hstep

/-- A state property that every step keeps holds in every reachable state. -/
theorem Run.invariant {I : σ → Prop} (hstart : I start)
    (hkeep : ∀ s a t, I s → step s a t → I t)
    {history : List (Move σ α)} {s : σ} (hrun : Run step start history s) : I s :=
  hrun.induct (I := fun _ s => I s) hstart fun _ s a t _ hI hstep => hkeep s a t hI hstep

/-- Every step of a run extends a shorter run. -/
theorem Run.of_prefix {history : List (Move σ α)} {s : σ} (hrun : Run step start history s)
    {earlier : List (Move σ α)} {m : Move σ α} (hle : earlier ++ [m] <+: history) :
    Run step start earlier m.pre ∧ step m.pre m.label m.post := by
  induction hrun with
  | nil =>
    have hnil := List.prefix_nil.mp hle
    exact absurd hnil (List.append_ne_nil_of_right_ne_nil _ (List.cons_ne_nil _ _))
  | @snoc history s t a hrun hstep ih =>
    rcases List.prefix_concat_iff.mp hle with heq | hle
    · obtain ⟨rfl, hm⟩ := List.append_inj' heq rfl
      obtain rfl := List.singleton_inj.mp hm
      exact ⟨hrun, hstep⟩
    · exact ih hle

/-- Every step of a run stands behind some shorter run. -/
theorem exists_prefix {history : List (Move σ α)} {m : Move σ α} (hm : m ∈ history) :
    ∃ earlier, earlier ++ [m] <+: history := by
  obtain ⟨earlier, later, rfl⟩ := List.append_of_mem hm
  exact ⟨earlier, later, by simp only [List.append_assoc, List.singleton_append]⟩

/-- A run passes through every state it names. -/
theorem Run.to_post {history : List (Move σ α)} {s : σ} (hrun : Run step start history s)
    {m : Move σ α} (hm : m ∈ history) :
    ∃ earlier, earlier <+: history ∧ Run step start earlier m.post := by
  obtain ⟨earlier, hle⟩ := exists_prefix hm
  obtain ⟨hearlier, hstep⟩ := hrun.of_prefix hle
  exact ⟨earlier ++ [m], hle, hearlier.snoc hstep⟩

/-- When each step from a good state leads to a good one under exactly its own
condition, a run visits only good states under exactly all these conditions. -/
theorem Run.forall_post_iff {good : σ → Prop} {condition : Move σ α → Prop} (hstart : good start)
    (hone : ∀ s a t, good s → step s a t → (good t ↔ condition ⟨s, a, t⟩))
    {history : List (Move σ α)} {s : σ} (hrun : Run step start history s) :
    (∀ m ∈ history, good m.post) ↔ ∀ m ∈ history, condition m := by
  have hboth : ((∀ m ∈ history, good m.post) ↔ ∀ m ∈ history, condition m) ∧
      ((∀ m ∈ history, good m.post) → good s) := by
    induction hrun with
    | nil => exact ⟨iff_of_true nofun nofun, fun _ => hstart⟩
    | @snoc history s t a hrun hstep ih =>
      obtain ⟨hiff, hlast⟩ := ih
      simp only [List.mem_append, List.mem_singleton, or_imp, forall_and, forall_eq]
      refine ⟨?_, And.right⟩
      rw [← hiff]
      exact and_congr_right fun hbefore => hone s a t (hlast hbefore) hstep
  exact hboth.1

/-- The visible steps of a history with the views of the states around them. -/
def projected (view : σ → τ) (visible : α → Option β) (history : List (Move σ α)) : List (Move τ β) :=
  history.filterMap fun m => (visible m.label).map fun b => ⟨view m.pre, b, view m.post⟩

/-- A projected history carries exactly the visible labels. -/
theorem labels_projected (view : σ → τ) (visible : α → Option β) (history : List (Move σ α)) :
    labels (projected view visible history) = (labels history).filterMap visible := by
  simp only [labels, projected, List.map_filterMap, List.filterMap_map, Function.comp_def, Option.map_map,
    Option.map_id_fun', id]

/-- Every step of a projected history is seen in the history. -/
theorem mem_projected {view : σ → τ} {visible : α → Option β} {history : List (Move σ α)} {n : Move τ β}
    (hn : n ∈ projected view visible history) :
    ∃ m ∈ history, visible m.label = some n.label ∧ n.pre = view m.pre := by
  obtain ⟨m, hm, hmap⟩ := List.mem_filterMap.mp hn
  obtain ⟨b, hvisible, rfl⟩ := Option.map_eq_some_iff.mp hmap
  exact ⟨m, hm, hvisible, rfl⟩

/-- Projection to a coarser system. Each step either is invisible or is the
coarse step its label names; the coarse run makes exactly the visible steps. -/
theorem Run.projects {coarse : τ → β → τ → Prop} (view : σ → τ) (visible : α → Option β)
    (hhidden : ∀ s a t, step s a t → visible a = none → view t = view s)
    (hshown : ∀ s a b t, step s a t → visible a = some b → coarse (view s) b (view t))
    {history : List (Move σ α)} {s : σ} (hrun : Run step start history s) :
    Run coarse (view start) (projected view visible history) (view s) := by
  induction hrun with
  | nil => exact .nil
  | @snoc history s t a hrun hstep ih =>
    unfold projected at ih ⊢
    rw [List.filterMap_append]
    cases ha : visible a with
    | none =>
      have hsame := hhidden s a t hstep ha
      rw [hsame]
      simpa only [List.filterMap_cons, List.filterMap_nil, ha, Option.map_none, List.append_nil] using ih
    | some b =>
      have hstep := hshown s a b t hstep ha
      simpa only [List.filterMap_cons, List.filterMap_nil, ha, Option.map_some] using ih.snoc hstep

/-- Projection by the labels alone. -/
theorem Run.project {coarse : τ → β → τ → Prop} (view : σ → τ) (visible : α → Option β)
    (hhidden : ∀ s a t, step s a t → visible a = none → view t = view s)
    (hshown : ∀ s a b t, step s a t → visible a = some b → coarse (view s) b (view t))
    {history : List (Move σ α)} {s : σ} (hrun : Run step start history s) :
    ∃ coarseHistory, Run coarse (view start) coarseHistory (view s) ∧
      labels coarseHistory = (labels history).filterMap visible :=
  ⟨_, hrun.projects view visible hhidden hshown, labels_projected view visible history⟩

end

end CurlHttpfs.Transition
