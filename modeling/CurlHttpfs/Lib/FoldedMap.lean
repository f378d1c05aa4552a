import Mathlib.Data.List.Nodup

/-!
# First-insert-wins maps with folded keys

A map whose keys are compared after folding, as a case-insensitive map
compares names. An insertion under a key that is already present is ignored.
Lookups see one entry for each folded key, hence neither the spelling of the
query nor the order of the entries matters to them.
-/

namespace CurlHttpfs

/-- Entries in insertion order, no two with the same folded key. -/
structure FoldedMap {κ ν : Type*} (fold : κ → ν) (β : Type*) where
  /-- The stored keys, spelled as first inserted, with their values. -/
  entries : List (κ × β)
  /-- Folded keys are distinct. -/
  distinct : (entries.map fun e => fold e.1).Nodup

namespace FoldedMap

variable {κ ν β : Type*} {fold : κ → ν}

/-- The map without entries. -/
def empty : FoldedMap fold β := ⟨[], List.nodup_nil⟩

variable [DecidableEq ν]

/-- First value of an association list under a folded key. -/
def firstOf (fold : κ → ν) (entries : List (κ × β)) (key : κ) : Option β :=
  (entries.find? fun e => fold e.1 = fold key).map Prod.snd

/-- The value stored under a key, up to folding. -/
def find? (m : FoldedMap fold β) (key : κ) : Option β := firstOf fold m.entries key

/-- Keep the map if the folded key is present, otherwise append the entry. -/
def insert (m : FoldedMap fold β) (key : κ) (value : β) : FoldedMap fold β :=
  if h : fold key ∈ m.entries.map fun e => fold e.1 then m
  else ⟨m.entries ++ [(key, value)], by
    rw [List.map_append, List.map_cons, List.map_nil]
    exact List.nodup_append.mpr ⟨m.distinct, List.nodup_singleton _, by
      intro a ha b hb
      rw [List.mem_singleton.mp hb]
      exact fun he => h (he ▸ ha)⟩⟩

@[simp] theorem firstOf_nil (key : κ) : firstOf fold ([] : List (κ × β)) key = none := rfl

theorem firstOf_cons (e : κ × β) (entries : List (κ × β)) (key : κ) :
    firstOf fold (e :: entries) key =
      if fold e.1 = fold key then some e.2 else firstOf fold entries key := by
  unfold firstOf
  rw [List.find?_cons]
  by_cases h : fold e.1 = fold key <;> simp only [h, decide_true, decide_false, if_true, if_false,
    Option.map_some]

theorem firstOf_append (xs ys : List (κ × β)) (key : κ) :
    firstOf fold (xs ++ ys) key = (firstOf fold xs key).or (firstOf fold ys key) := by
  induction xs with
  | nil => rfl
  | cons e xs ih =>
    rw [List.cons_append, firstOf_cons, firstOf_cons, ih]
    split <;> rfl

/-- A folded key has a value exactly when it is among the folded keys. -/
theorem firstOf_isSome_iff (entries : List (κ × β)) (key : κ) :
    (firstOf fold entries key).isSome ↔ fold key ∈ entries.map fun e => fold e.1 := by
  induction entries with
  | nil => simp only [firstOf_nil, Option.isSome_none, Bool.false_eq_true, List.map_nil,
      List.not_mem_nil]
  | cons e entries ih =>
    rw [firstOf_cons, List.map_cons, List.mem_cons, ← ih]
    by_cases h : fold e.1 = fold key
    · simp only [h, if_true, Option.isSome_some, true_or]
    · rw [if_neg h]
      exact ⟨Or.inr, fun h' => h'.resolve_left fun he => h he.symm⟩

/-- An insertion is seen by exactly the queries that found nothing before. -/
theorem find?_insert (m : FoldedMap fold β) (key : κ) (value : β) (query : κ) :
    (m.insert key value).find? query =
      (m.find? query).or (if fold key = fold query then some value else none) := by
  unfold insert
  split
  · rename_i h
    by_cases hk : fold key = fold query
    · rw [hk] at h
      obtain ⟨v, hv⟩ := Option.isSome_iff_exists.mp ((firstOf_isSome_iff m.entries query).mpr h)
      rw [show m.find? query = some v from hv, Option.some_or]
    · rw [if_neg hk, Option.or_none]
  · change firstOf fold (m.entries ++ [(key, value)]) query = _
    rw [firstOf_append, firstOf_cons, firstOf_nil]
    rfl

/-- Dropping entries is invisible to every query whose folded key is kept. -/
theorem firstOf_filter {keep : κ × β → Bool} {entries : List (κ × β)} {query : κ}
    (hkeep : ∀ e ∈ entries, fold e.1 = fold query → keep e = true) :
    firstOf fold (entries.filter keep) query = firstOf fold entries query := by
  induction entries with
  | nil => rfl
  | cons e entries ih =>
    have ih := ih fun e' he' => hkeep e' (List.mem_cons_of_mem _ he')
    by_cases hk : keep e = true
    · rw [List.filter_cons_of_pos hk, firstOf_cons, firstOf_cons, ih]
    · rw [List.filter_cons_of_neg hk, firstOf_cons, ih, if_neg]
      exact fun he => hk (hkeep e List.mem_cons_self he)

end FoldedMap

end CurlHttpfs
