import Mathlib.Logic.Function.Basic
import Mathlib.Tactic.Common

/-!
# Objects and their owners

A heap gives out every address once. Reading, writing and freeing an address
whose object is gone is noticed. When every object has exactly one owner, its
owners can do none of that, and the heap is as good as a map from the owners to
the contents of their objects.
-/

namespace CurlHttpfs

/-- Objects at addresses. -/
structure Heap (α : Type*) where
  /-- The objects that are alive. -/
  cell : Nat → Option α
  /-- The next address. -/
  next : Nat
  /-- Addresses are given out in order. -/
  fresh : ∀ p, next ≤ p → cell p = none

namespace Heap

variable {α ι : Type*}

theorem fresh_empty (p : Nat) (_ : 0 ≤ p) : (none : Option α) = none := rfl

/-- A heap without objects. -/
def empty : Heap α := ⟨fun _ => none, 0, fresh_empty⟩

theorem fresh_alloc (heap : Heap α) (v : α) (p : Nat) (hp : heap.next + 1 ≤ p) :
    Function.update heap.cell heap.next (some v) p = none := by
  have hne : p ≠ heap.next := by omega
  rw [Function.update_of_ne hne]
  exact heap.fresh p (by omega)

/-- A new object. -/
def alloc (heap : Heap α) (v : α) : Heap α :=
  ⟨Function.update heap.cell heap.next (some v), heap.next + 1, heap.fresh_alloc v⟩

@[simp] theorem alloc_cell_self (heap : Heap α) (v : α) : (heap.alloc v).cell heap.next = some v :=
  Function.update_self _ _ _

theorem alloc_cell_other (heap : Heap α) (v : α) {p : Nat} (h : p ≠ heap.next) :
    (heap.alloc v).cell p = heap.cell p :=
  Function.update_of_ne h _ _

theorem lt_next {heap : Heap α} {p : Nat} (h : heap.cell p ≠ none) : p < heap.next := by
  by_contra hle
  exact h (heap.fresh p (Nat.le_of_not_lt hle))

theorem fresh_put {heap : Heap α} {p : Nat} (hlive : heap.cell p ≠ none) (v : Option α) (q : Nat)
    (hq : heap.next ≤ q) : Function.update heap.cell p v q = none := by
  have hne : q ≠ p := by
    have hlt := lt_next hlive
    omega
  rw [Function.update_of_ne hne]
  exact heap.fresh q hq

/-- What stands at a live address is replaced, nothing stands for a freed object. -/
def put (heap : Heap α) (p : Nat) (v : Option α) : Option (Heap α) :=
  if hlive : heap.cell p ≠ none then some ⟨Function.update heap.cell p v, heap.next, fresh_put hlive v⟩
  else none

/-- A write to an object, if it is alive. -/
def write (heap : Heap α) (p : Nat) (v : α) : Option (Heap α) := heap.put p (some v)

/-- `delete` of an object, if it is alive. -/
def free (heap : Heap α) (p : Nat) : Option (Heap α) := heap.put p none

/-! ## Owners -/

/-- Every object has one owner. -/
structure Owns (heap : Heap α) (ptr : ι → Option Nat) : Prop where
  /-- Owners point to live objects. -/
  live : ∀ i p, ptr i = some p → heap.cell p ≠ none
  /-- Two owners do not share an object. -/
  apart : ∀ i j p, ptr i = some p → ptr j = some p → i = j
  /-- No live object is without an owner. -/
  covered : ∀ p, heap.cell p ≠ none → ∃ i, ptr i = some p

/-- What the owners own. -/
def contents (heap : Heap α) (ptr : ι → Option Nat) (i : ι) : Option α := (ptr i).bind heap.cell

theorem owns_empty : Owns (empty : Heap α) (fun _ : ι => none) where
  live i p hp := by cases hp
  apart i j p hp := by cases hp
  covered p hp := absurd rfl hp

variable {heap : Heap α} {ptr : ι → Option Nat}

theorem contents_none {i : ι} (h : ptr i = none) : heap.contents ptr i = none := by
  rw [contents, h, Option.bind_none]

variable [DecidableEq ι]

/-- A new object for one that owns none. -/
theorem Owns.alloc (h : Owns heap ptr) {i : ι} (hi : ptr i = none) (v : α) :
    Owns (heap.alloc v) (Function.update ptr i (some heap.next)) ∧
      (heap.alloc v).contents (Function.update ptr i (some heap.next)) =
        Function.update (heap.contents ptr) i (some v) := by
  have hold {j : ι} {p : Nat} (hp : ptr j = some p) : p ≠ heap.next := by
    have hlt := lt_next (h.live j p hp)
    omega
  refine ⟨⟨?_, ?_, ?_⟩, ?_⟩
  · intro j p hp
    by_cases hj : j = i
    · rw [hj, Function.update_self] at hp
      rw [← Option.some.inj hp, alloc_cell_self]
      exact Option.some_ne_none v
    · rw [Function.update_of_ne hj] at hp
      rw [alloc_cell_other heap v (hold hp)]
      exact h.live j p hp
  · intro j k p hj hk
    by_cases hji : j = i
    · by_cases hki : k = i
      · rw [hji, hki]
      · rw [hji, Function.update_self] at hj
        rw [Function.update_of_ne hki] at hk
        exact absurd (Option.some.inj hj).symm (hold hk)
    · rw [Function.update_of_ne hji] at hj
      by_cases hki : k = i
      · rw [hki, Function.update_self] at hk
        exact absurd (Option.some.inj hk).symm (hold hj)
      · rw [Function.update_of_ne hki] at hk
        exact h.apart j k p hj hk
  · intro p hp
    by_cases hnew : p = heap.next
    · exact ⟨i, hnew ▸ Function.update_self _ _ _⟩
    · rw [alloc_cell_other heap v hnew] at hp
      obtain ⟨j, hj⟩ := h.covered p hp
      have hne : j ≠ i := by
        rintro rfl
        rw [hi] at hj
        cases hj
      exact ⟨j, (Function.update_of_ne hne _ _).trans hj⟩
  · funext j
    by_cases hj : j = i
    · rw [hj, Function.update_self, contents, Function.update_self, Option.bind_some, alloc_cell_self]
    · rw [Function.update_of_ne hj, contents, Function.update_of_ne hj, contents]
      cases hp : ptr j with
      | none => rfl
      | some p => exact alloc_cell_other heap v (hold hp)

/-- A new object that is written at once. -/
theorem write_alloc (heap : Heap α) (v w : α) : (heap.alloc v).write heap.next w = some (heap.alloc w) := by
  have hlive : (heap.alloc v).cell heap.next ≠ none := by
    rw [alloc_cell_self]
    exact Option.some_ne_none v
  rw [write, put, dif_pos hlive]
  simp only [Heap.alloc, Function.update_idem]

/-- The contents behind a change at a live address. -/
theorem Owns.contents_put (h : Owns heap ptr) {i : ι} {p : Nat} (hi : ptr i = some p) {after : Heap α}
    {v : Option α} (hcell : after.cell = Function.update heap.cell p v) :
    after.contents ptr = Function.update (heap.contents ptr) i v := by
  funext j
  by_cases hj : j = i
  · rw [hj, Function.update_self, contents, hi, Option.bind_some, hcell, Function.update_self]
  · rw [Function.update_of_ne hj, contents, contents]
    cases hp : ptr j with
    | none => rfl
    | some q =>
      have hne : q ≠ p := by
        rintro rfl
        exact hj (h.apart j i q hp hi)
      rw [Option.bind_some, Option.bind_some, hcell, Function.update_of_ne hne]

/-- An owner writes its object. -/
theorem Owns.write (h : Owns heap ptr) {i : ι} {p : Nat} (hi : ptr i = some p) (v : α) :
    ∃ after, heap.write p v = some after ∧ Owns after ptr ∧
      after.contents ptr = Function.update (heap.contents ptr) i (some v) := by
  refine ⟨_, dif_pos (h.live i p hi), ⟨?_, h.apart, ?_⟩, h.contents_put hi rfl⟩
  · intro j q hq
    change Function.update heap.cell p (some v) q ≠ none
    by_cases hqp : q = p
    · rw [hqp, Function.update_self]
      exact Option.some_ne_none v
    · rw [Function.update_of_ne hqp]
      exact h.live j q hq
  · intro q hq
    change Function.update heap.cell p (some v) q ≠ none at hq
    by_cases hqp : q = p
    · exact ⟨i, hqp ▸ hi⟩
    · rw [Function.update_of_ne hqp] at hq
      exact h.covered q hq

/-- An owner frees its object and forgets it. -/
theorem Owns.free (h : Owns heap ptr) {i : ι} {p : Nat} (hi : ptr i = some p) :
    ∃ after, heap.free p = some after ∧ Owns after (Function.update ptr i none) ∧
      after.contents (Function.update ptr i none) = Function.update (heap.contents ptr) i none := by
  have hother {j : ι} {q : Nat} (hq : Function.update ptr i none j = some q) : ptr j = some q ∧ q ≠ p := by
    by_cases hj : j = i
    · rw [hj, Function.update_self] at hq
      cases hq
    · rw [Function.update_of_ne hj] at hq
      refine ⟨hq, ?_⟩
      rintro rfl
      exact hj (h.apart j i q hq hi)
  refine ⟨_, dif_pos (h.live i p hi), ⟨?_, ?_, ?_⟩, ?_⟩
  · intro j q hq
    obtain ⟨hj, hne⟩ := hother hq
    change Function.update heap.cell p none q ≠ none
    rw [Function.update_of_ne hne]
    exact h.live j q hj
  · exact fun j k q hj hk => h.apart j k q (hother hj).1 (hother hk).1
  · intro q hq
    change Function.update heap.cell p none q ≠ none at hq
    have hne : q ≠ p := by
      rintro rfl
      exact hq (Function.update_self _ _ _)
    rw [Function.update_of_ne hne] at hq
    obtain ⟨j, hj⟩ := h.covered q hq
    have hji : j ≠ i := by
      rintro rfl
      exact hne (Option.some.inj (hj.symm.trans hi))
    exact ⟨j, (Function.update_of_ne hji _ _).trans hj⟩
  · funext j
    by_cases hj : j = i
    · rw [hj, Function.update_self]
      exact contents_none (Function.update_self _ _ _)
    · have hcell : (⟨Function.update heap.cell p none, heap.next, fresh_put (h.live i p hi) none⟩ : Heap α).cell =
          Function.update heap.cell p none := rfl
      rw [← h.contents_put hi hcell, contents, contents, Function.update_of_ne hj]

end Heap

end CurlHttpfs
