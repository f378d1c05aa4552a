import Mathlib.Data.List.Sort

/-!
# Sorting by keys

A list is sorted by a key of its elements. When no two elements share a key,
the keys of the result increase strictly, and the result does not depend on the
order of the list. An unstable sort then gives the same result as a stable one.
-/

namespace CurlHttpfs.Sorting

variable {α κ : Type*} [LinearOrder κ]

/-- `std::sort` with a comparison of keys: no key is less than one in front of it. -/
def sortBy (key : α → κ) (l : List α) : List α := l.insertionSort fun a b => ¬key b < key a

variable {key : α → κ} {l l' : List α}

theorem sortBy_perm : (sortBy key l).Perm l := List.perm_insertionSort _ l

/-- Different keys increase strictly. -/
theorem sortBy_strict (h : (l.map key).Nodup) : (sortBy key l).Pairwise fun a b => key a < key b := by
  have htotal : Std.Total fun a b : α => ¬key b < key a :=
    ⟨fun a b => (le_total (key a) (key b)).imp not_lt_of_ge not_lt_of_ge⟩
  have htrans : IsTrans α fun a b => ¬key b < key a :=
    ⟨fun a b c hab hbc => not_lt_of_ge ((le_of_not_gt hab).trans (le_of_not_gt hbc))⟩
  have hsorted := List.pairwise_insertionSort (fun a b => ¬key b < key a) l
  have hdistinct : (sortBy key l).Pairwise fun a b => key a ≠ key b :=
    List.pairwise_map.mp ((sortBy_perm.map key).nodup_iff.mpr h)
  exact (hsorted.and hdistinct).imp fun h => lt_of_le_of_ne (le_of_not_gt h.1) h.2

/-- Lists with the same elements are equal when their keys increase strictly. -/
theorem eq_of_perm_of_strict (hperm : l.Perm l') (h : l.Pairwise fun a b => key a < key b)
    (h' : l'.Pairwise fun a b => key a < key b) : l = l' :=
  hperm.eq_of_pairwise (fun _ _ _ _ hab hba => absurd hba (lt_asymm hab)) h h'

/-- The order of the list does not matter when keys are different. -/
theorem sortBy_eq_of_perm (hperm : l.Perm l') (h : (l'.map key).Nodup) : sortBy key l = sortBy key l' :=
  eq_of_perm_of_strict (sortBy_perm.trans (hperm.trans sortBy_perm.symm))
    (sortBy_strict ((hperm.map key).nodup_iff.mpr h)) (sortBy_strict h)

end CurlHttpfs.Sorting
