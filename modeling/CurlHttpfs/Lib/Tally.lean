import Mathlib.Algebra.BigOperators.Group.List.Lemmas
import Mathlib.Algebra.GroupWithZero.Nat
import Mathlib.Data.List.AList

/-!
# Counting keys with bounded counters

A map from keys to counters is filled by incrementing the counter of each key
of a list. A key that is not there starts from zero, and a counter cannot pass
its limit. Behind the run the map has the keys of the list with their numbers
of occurrences, which do not depend on its order and add up to its length.
-/

namespace CurlHttpfs.Tally

/-- A map from keys to counters. -/
abbrev Counters (κ : Type*) := AList fun _ : κ => Nat

variable {κ : Type*} [DecidableEq κ]

/-- The counter of a key, zero when it is not there. -/
def countOf (m : Counters κ) (k : κ) : Nat := (m.lookup k).getD 0

/-- `++m[k]` on a counter that cannot pass a limit. -/
def increment (limit : Nat) (m : Counters κ) (k : κ) : Option (Counters κ) :=
  if countOf m k < limit then some (m.insert k (countOf m k + 1)) else none

/-- The counters are incremented key by key. -/
def tally (limit : Nat) (m : Counters κ) (keys : List κ) : Option (Counters κ) :=
  keys.foldlM (increment limit) m

theorem tally_cons (limit : Nat) (m : Counters κ) (k : κ) (keys : List κ) :
    tally limit m (k :: keys) = (increment limit m k).bind fun m => tally limit m keys :=
  rfl

theorem countOf_insert (m : Counters κ) (k : κ) (n : Nat) (query : κ) :
    countOf (m.insert k n) query = if query = k then n else countOf m query := by
  by_cases h : query = k
  · rw [if_pos h, h, countOf, AList.lookup_insert]
    rfl
  · rw [if_neg h, countOf, countOf, AList.lookup_insert_ne h]

theorem countOf_empty (k : κ) : countOf (∅ : Counters κ) k = 0 := by
  rw [countOf, AList.lookup_empty]
  rfl

variable [BEq κ] [LawfulBEq κ]

/-- An increment and the rest of the list add up to the whole list. -/
theorem countOf_increment (m : Counters κ) (k : κ) (keys : List κ) (query : κ) :
    countOf (m.insert k (countOf m k + 1)) query + keys.count query =
      countOf m query + (k :: keys).count query := by
  rw [countOf_insert]
  by_cases hk : query = k
  · rw [if_pos hk, hk, List.count_cons_self]
    omega
  · rw [if_neg hk, List.count_cons_of_ne (Ne.symm hk)]

variable {limit : Nat} {m after : Counters κ} {keys : List κ}

/-- Counters behind a run that passed no limit. -/
theorem tally_lookup (h : tally limit m keys = some after) (query : κ) :
    after.lookup query =
      if query ∈ keys then some (countOf m query + keys.count query) else m.lookup query := by
  induction keys generalizing m with
  | nil =>
    obtain rfl := Option.some.inj h
    rw [if_neg List.not_mem_nil]
  | cons k keys ih =>
    rw [tally_cons, increment] at h
    split at h
    · rw [ih h, countOf_increment]
      by_cases hmem : query ∈ keys
      · rw [if_pos hmem, if_pos (List.mem_cons_of_mem _ hmem)]
      · rw [if_neg hmem]
        by_cases hk : query = k
        · rw [hk, if_pos List.mem_cons_self, AList.lookup_insert, List.count_cons_self,
            List.count_eq_zero_of_not_mem (hk ▸ hmem)]
        · rw [AList.lookup_insert_ne hk, if_neg fun h => (List.mem_cons.mp h).elim hk hmem]
    · cases h

/-- The run passes no limit exactly when no key occurs too often. -/
theorem tally_isSome_iff : (tally limit m keys).isSome ↔ ∀ k ∈ keys, countOf m k + keys.count k ≤ limit := by
  induction keys generalizing m with
  | nil => exact iff_of_true rfl fun k hk => absurd hk List.not_mem_nil
  | cons k keys ih =>
    rw [tally_cons, increment]
    split
    · rename_i hlt
      rw [Option.bind_some, ih]
      constructor
      · intro hall query hquery
        by_cases hmem : query ∈ keys
        · rw [← countOf_increment]
          exact hall query hmem
        · obtain rfl := (List.mem_cons.mp hquery).resolve_right hmem
          rw [List.count_cons_self, List.count_eq_zero_of_not_mem hmem]
          exact hlt
      · intro hall query hquery
        rw [countOf_increment]
        exact hall query (List.mem_cons_of_mem _ hquery)
    · rename_i hlt
      refine iff_of_false Bool.false_ne_true fun hall => ?_
      have hcount := hall k List.mem_cons_self
      rw [List.count_cons_self] at hcount
      omega

/-- Keys in another order get the same counters. -/
theorem tally_perm {keys' : List κ} (hkeys : keys'.Perm keys) (h : tally limit m keys = some after) :
    ∃ after', tally limit m keys' = some after' ∧ after'.entries.Perm after.entries := by
  have hsome : (tally limit m keys').isSome := by
    rw [tally_isSome_iff]
    intro k hk
    rw [hkeys.count_eq]
    refine tally_isSome_iff.mp ?_ k (hkeys.mem_iff.mp hk)
    rw [h]
    rfl
  obtain ⟨after', h'⟩ := Option.isSome_iff_exists.mp hsome
  refine ⟨after', h', List.lookup_ext after'.nodupKeys after.nodupKeys fun query n => ?_⟩
  have hlookup : after'.lookup query = after.lookup query := by
    rw [tally_lookup h', tally_lookup h, hkeys.count_eq]
    simp only [hkeys.mem_iff]
  exact iff_of_eq (congrArg (n ∈ ·) hlookup)

/-- From no counters, each key gets its number of occurrences. -/
theorem tally_empty_lookup (h : tally limit ∅ keys = some after) (query : κ) :
    after.lookup query = if query ∈ keys then some (keys.count query) else none := by
  rw [tally_lookup h, countOf_empty, Nat.zero_add, AList.lookup_empty]

omit [BEq κ] [LawfulBEq κ] in
/-- From no counters, the counters add up to the number of keys. -/
theorem tally_empty_sum (h : tally limit ∅ keys = some after) :
    (after.entries.map Sigma.snd).sum = keys.length := by
  have hkeys : after.keys.Perm keys.dedup := by
    rw [List.perm_ext_iff_of_nodup after.keys_nodup (List.nodup_dedup keys)]
    intro query
    rw [List.mem_dedup, ← AList.mem_keys, ← AList.lookup_isSome, tally_empty_lookup h]
    by_cases hquery : query ∈ keys
    · rw [if_pos hquery]
      exact iff_of_true rfl hquery
    · rw [if_neg hquery]
      exact iff_of_false Bool.false_ne_true hquery
  have hcounts : after.entries.map Sigma.snd = after.keys.map fun k => keys.count k := by
    rw [AList.keys, List.keys, List.map_map]
    refine List.map_congr_left fun entry hentry => ?_
    have hlookup := tally_empty_lookup h entry.1
    rw [AList.mem_lookup_iff.mpr hentry] at hlookup
    split at hlookup
    · exact Option.some.inj hlookup
    · cases hlookup
  rw [hcounts, (hkeys.map _).sum_eq, List.sum_map_count_dedup_eq_length]

end CurlHttpfs.Tally
