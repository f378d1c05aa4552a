import Mathlib.Algebra.BigOperators.Group.Finset.Piecewise
import Mathlib.Algebra.Order.BigOperators.Group.Finset
import Mathlib.Data.Fintype.Card

/-!
# Counting the members of a finite family

A family of finitely many parties, each in some position, is counted by a
property of the positions. A party that moves changes the count by one or not
at all.
-/

namespace CurlHttpfs

variable {ι β : Type*} [Fintype ι] (p : β → Prop) [DecidablePred p]

/-- How many members of the family are in a position with the property. -/
def census (pc : ι → β) : Nat := (Finset.univ.filter fun i => p (pc i)).card

variable {p} {pc : ι → β}

/-- A count above zero names a member. -/
theorem census_pos_iff : 0 < census p pc ↔ ∃ i, p (pc i) := by
  rw [census, Finset.card_pos]
  constructor
  · rintro ⟨i, hi⟩
    exact ⟨i, (Finset.mem_filter.mp hi).2⟩
  · rintro ⟨i, hi⟩
    exact ⟨i, Finset.mem_filter.mpr ⟨Finset.mem_univ i, hi⟩⟩

/-- A count of zero excludes every member. -/
theorem census_eq_zero_iff : census p pc = 0 ↔ ∀ i, ¬p (pc i) := by
  rw [← not_exists, ← census_pos_iff, Nat.pos_iff_ne_zero, not_not]

/-- A member outside leaves room for one more. -/
theorem census_lt {i : ι} (h : ¬p (pc i)) : census p pc < Fintype.card ι := by
  refine Finset.card_lt_card ⟨Finset.filter_subset _ _, fun hall => ?_⟩
  exact h (Finset.mem_filter.mp (hall (Finset.mem_univ i))).2

/-- Two members of a count of one are the same. -/
theorem census_unique (h : census p pc ≤ 1) {i j : ι} (hi : p (pc i)) (hj : p (pc j)) : i = j :=
  Finset.card_le_one.mp h i (Finset.mem_filter.mpr ⟨Finset.mem_univ i, hi⟩) j
    (Finset.mem_filter.mpr ⟨Finset.mem_univ j, hj⟩)

/-- Families that agree on the property have the same count. -/
theorem census_congr {pc' : ι → β} (h : ∀ i, p (pc' i) ↔ p (pc i)) : census p pc' = census p pc := by
  simp only [census, h]

variable [DecidableEq ι]

/-- A member that comes in adds one. -/
theorem census_enter {i : ι} {b : β} (hout : ¬p (pc i)) (hin : p b) :
    census p (Function.update pc i b) = census p pc + 1 := by
  have hset : (Finset.univ.filter fun j => p (Function.update pc i b j)) =
      insert i (Finset.univ.filter fun j => p (pc j)) := by
    ext j
    rw [Finset.mem_insert, Finset.mem_filter, Finset.mem_filter]
    by_cases hj : j = i
    · subst hj
      simp only [Function.update_self, hin, Finset.mem_univ, and_self, true_or]
    · simp only [Function.update_of_ne hj, hj, false_or]
  have hnew : i ∉ Finset.univ.filter fun j => p (pc j) := fun hm => hout (Finset.mem_filter.mp hm).2
  rw [census, hset, Finset.card_insert_of_notMem hnew, census]

/-- A member that goes out takes one away. -/
theorem census_leave {i : ι} {b : β} (hin : p (pc i)) (hout : ¬p b) :
    census p (Function.update pc i b) + 1 = census p pc := by
  have hback : Function.update (Function.update pc i b) i (pc i) = pc := by
    rw [Function.update_idem, Function.update_eq_self]
  have hself : ¬p (Function.update pc i b i) := by
    rw [Function.update_self]
    exact hout
  rw [← census_enter hself hin, hback]

/-- A member that moves without crossing the property does not count. -/
theorem census_stay {i : ι} {b : β} (h : p b ↔ p (pc i)) :
    census p (Function.update pc i b) = census p pc := by
  refine census_congr fun j => ?_
  by_cases hj : j = i
  · subst hj
    rw [Function.update_self, h]
  · rw [Function.update_of_ne hj]

/-- The count before and behind any move. -/
theorem census_update (pc : ι → β) (i : ι) (b : β) :
    census p (Function.update pc i b) + (if p (pc i) then 1 else 0) =
      census p pc + if p b then 1 else 0 := by
  by_cases hbefore : p (pc i) <;> by_cases hafter : p b
  · rw [if_pos hbefore, if_pos hafter, census_stay (iff_of_true hafter hbefore)]
  · rw [if_pos hbefore, if_neg hafter, census_leave hbefore hafter, Nat.add_zero]
  · rw [if_neg hbefore, if_pos hafter, census_enter hbefore hafter, Nat.add_zero]
  · rw [if_neg hbefore, if_neg hafter, census_stay (iff_of_false hafter hbefore)]

/-! ## Weights -/

/-- A sum before and behind a change of one summand. -/
theorem sum_change {κ : Type*} [DecidableEq κ] {members : Finset κ} {f g : κ → Nat} {i : κ}
    (hi : i ∈ members) (h : ∀ j ∈ members, j ≠ i → g j = f j) :
    ∑ j ∈ members, g j + f i = ∑ j ∈ members, f j + g i := by
  have hrest : ∑ j ∈ members.erase i, g j = ∑ j ∈ members.erase i, f j := by
    refine Finset.sum_congr rfl fun j hj => ?_
    obtain ⟨hne, hm⟩ := Finset.mem_erase.mp hj
    exact h j hm hne
  have hafter := Finset.add_sum_erase members g hi
  have hbefore := Finset.add_sum_erase members f hi
  omega

section

omit [DecidableEq ι]

/-- What the positions of the family weigh together. -/
def total (weight : β → Nat) (pc : ι → β) : Nat := ∑ i, weight (pc i)

variable (weight : β → Nat)

/-- A family in which each member gains at most one gains at most its size. -/
theorem total_le_add_card {pc pc' : ι → β} (h : ∀ i, weight (pc' i) ≤ weight (pc i) + 1) :
    total weight pc' ≤ total weight pc + Fintype.card ι := by
  have hsum := Finset.sum_le_sum fun i (_ : i ∈ Finset.univ) => h i
  rw [Finset.sum_add_distrib, ← Finset.card_eq_sum_ones, Finset.card_univ] at hsum
  exact hsum

end

/-- The weight before and behind any move. -/
theorem total_update (weight : β → Nat) (pc : ι → β) (i : ι) (b : β) :
    total weight (Function.update pc i b) + weight (pc i) = total weight pc + weight b := by
  have hchange := sum_change (f := fun j => weight (pc j)) (g := fun j => weight (Function.update pc i b j))
    (Finset.mem_univ i) fun j _ hj => by rw [Function.update_of_ne hj]
  rw [Function.update_self] at hchange
  exact hchange

end CurlHttpfs
