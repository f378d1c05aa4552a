import Mathlib.Algebra.GroupWithZero.Nat
import CurlHttpfs.Lib.Transition

/-!
# Potentials

A potential turns what single steps do into bounds over whole runs. When
every step pays its cost from the potential and from a credit of its own, the
costs of a run are bounded by the potential it started with and the credits it
received. When some steps are internal and each of them lowers the potential,
a system left to itself comes to rest, and where it rests nothing internal
can happen any more.
-/

namespace CurlHttpfs.Transition

section

variable {σ α : Type*} {step : σ → α → σ → Prop} {start : σ}

/-- What the labels of a history add up to. -/
def spent (price : α → Nat) (history : List (Move σ α)) : Nat :=
  ((labels history).map price).sum

theorem spent_snoc (price : α → Nat) (history : List (Move σ α)) (m : Move σ α) :
    spent price (history ++ [m]) = spent price history + price m.label := by
  simp only [spent, labels_snoc, List.map_append, List.map_cons, List.map_nil, List.sum_append,
    List.sum_cons, List.sum_nil, Nat.add_zero]

/-- Amortization: costs are bounded by the potential at the start and the credits received. -/
theorem Run.amortize (potential : σ → Nat) (cost credit : α → Nat)
    (hpay : ∀ history s a t, Run step start history s → step s a t →
      potential t + cost a ≤ potential s + credit a)
    {history : List (Move σ α)} {s : σ} (hrun : Run step start history s) :
    potential s + spent cost history ≤ potential start + spent credit history := by
  refine hrun.induct (I := fun history s =>
    potential s + spent cost history ≤ potential start + spent credit history) (Nat.le_refl _) ?_
  intro history s a t hpast hI hstep
  have hone := hpay history s a t hpast hstep
  rw [spent_snoc, spent_snoc]
  dsimp only
  omega

/-- The system made only internal steps from one state to another. -/
def Quietly (step : σ → α → σ → Prop) (internal : α → Prop) (s : σ) (later : List (Move σ α))
    (t : σ) : Prop :=
  Run step s later t ∧ ∀ m ∈ later, internal m.label

/-- Left to itself the system rests after a bounded number of internal steps,
whichever are taken, and where it rests it is done. -/
structure ComesToRest (step : σ → α → σ → Prop) (internal : α → Prop) (done : σ → Prop) (s : σ)
    (bound : Nat) : Prop where
  /-- No internal run is longer than the bound. -/
  bounded : ∀ later t, Quietly step internal s later t → later.length ≤ bound
  /-- An internal run that cannot go on has arrived. -/
  rests : ∀ later t, Quietly step internal s later t → (∀ a u, internal a → ¬step t a u) → done t
  /-- Some internal run arrives. -/
  arrives : ∃ later t, Quietly step internal s later t ∧ done t

section

variable {internal : α → Prop} {done good : σ → Prop} {potential : σ → Nat}

/-- Internal steps keep what each of them keeps. -/
theorem Quietly.keeps (hkeep : ∀ s a t, good s → internal a → step s a t → good t) {s t : σ}
    {later : List (Move σ α)} (hquiet : Quietly step internal s later t) (hs : good s) : good t := by
  refine hquiet.1.induct (I := fun later t => (∀ m ∈ later, internal m.label) → good t) (fun _ => hs) ?_ hquiet.2
  intro later t a u _ hI hstep hinternal
  have hbefore := hI fun m hm => hinternal m (List.mem_append_left _ hm)
  exact hkeep t a u hbefore (hinternal _ (List.mem_append_right _ (List.mem_singleton_self _))) hstep

/-- The potential pays for every internal step. -/
theorem Quietly.length_le (hkeep : ∀ s a t, good s → internal a → step s a t → good t)
    (hlower : ∀ s a t, good s → internal a → step s a t → potential t < potential s) {s t : σ}
    {later : List (Move σ α)} (hquiet : Quietly step internal s later t) (hs : good s) :
    potential t + later.length ≤ potential s := by
  refine hquiet.1.induct (I := fun later t => (∀ m ∈ later, internal m.label) →
    potential t + later.length ≤ potential s) (fun _ => Nat.le_refl _) ?_ hquiet.2
  intro later t a u hpast hI hstep hinternal
  have hquiet : ∀ m ∈ later, internal m.label := fun m hm => hinternal m (List.mem_append_left _ hm)
  have hlast : internal a := hinternal _ (List.mem_append_right _ (List.mem_singleton_self _))
  have hgood : good t := Quietly.keeps hkeep ⟨hpast, hquiet⟩ hs
  have hone := hlower t a u hgood hlast hstep
  have hbefore := hI hquiet
  rw [List.length_append, List.length_singleton]
  omega

/-- A system whose internal steps lower the potential, and which can take one
unless it is done, settles. -/
theorem comesToRest_of_potential (good : σ → Prop) (potential : σ → Nat)
    (hkeep : ∀ s a t, good s → internal a → step s a t → good t)
    (hlower : ∀ s a t, good s → internal a → step s a t → potential t < potential s)
    (hmove : ∀ s, good s → ¬done s → ∃ a t, internal a ∧ step s a t) {s : σ} (hs : good s) :
    ComesToRest step internal done s (potential s) where
  bounded later t hquiet := by
    have hpaid := hquiet.length_le hkeep hlower hs
    omega
  rests later t hquiet hstuck := by
    by_contra hnot
    obtain ⟨a, u, hinternal, hstep⟩ := hmove t (hquiet.keeps hkeep hs) hnot
    exact hstuck a u hinternal hstep
  arrives := by
    -- take internal steps until the state is done, by induction on what is left of the potential
    suffices harrive : ∀ budget s, good s → potential s ≤ budget →
        ∃ later t, Quietly step internal s later t ∧ done t from harrive _ s hs (Nat.le_refl _)
    intro budget
    induction budget with
    | zero =>
      intro s hs hle
      refine ⟨[], s, ⟨.nil, fun m hm => absurd hm List.not_mem_nil⟩, ?_⟩
      by_contra hnot
      obtain ⟨a, t, hinternal, hstep⟩ := hmove s hs hnot
      have hless := hlower s a t hs hinternal hstep
      omega
    | succ budget ih =>
      intro s hs hle
      by_cases hdone : done s
      · exact ⟨[], s, ⟨.nil, fun m hm => absurd hm List.not_mem_nil⟩, hdone⟩
      obtain ⟨a, t, hinternal, hstep⟩ := hmove s hs hdone
      have hless := hlower s a t hs hinternal hstep
      obtain ⟨later, u, ⟨hrun, hquiet⟩, hu⟩ := ih t (hkeep s a t hs hinternal hstep) (by omega)
      refine ⟨[⟨s, a, t⟩] ++ later, u, ⟨(Run.nil.snoc hstep).append hrun, ?_⟩, hu⟩
      intro m hm
      rcases List.mem_append.mp hm with hm | hm
      · rw [List.mem_singleton.mp hm]
        exact hinternal
      · exact hquiet m hm

end

end

end CurlHttpfs.Transition
