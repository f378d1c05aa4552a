import Mathlib.Algebra.Order.Floor.Div
import Mathlib.Tactic.Common

/-!
# Handing out a list in portions

A resumable source is called again and again until a call produces nothing.
When every call hands out the first items of what is left, at most a fixed
number of them, the calls hand out everything once, in as few portions as the
size of a portion permits.
-/

namespace CurlHttpfs.Paging

variable {σ ι ο β : Type*}

/-- The source is called with one input after another until an output counts
nothing. The outputs are collected; there is no result when the inputs run out first. -/
def untilEmpty (call : σ → ι → σ × ο) (count : ο → Nat) : σ → List ι → Option (List ο)
  | _, [] => none
  | s, i :: inputs =>
    if count (call s i).2 = 0 then some [(call s i).2]
    else (untilEmpty call count (call s i).1 inputs).map ((call s i).2 :: ·)

/-- A call hands out the first items of what is left, at most a number of them. -/
structure HandsOut (call : σ → ι → σ × ο) (count : ο → Nat) (items : ο → List β) (left : σ → List β)
    (fresh : ι → Prop) (size : Nat) : Prop where
  /-- An output counts its items. -/
  counted : ∀ o, (items o).length = count o
  /-- The first items are in the output. -/
  given : ∀ s i, fresh i → items (call s i).2 = (left s).take size
  /-- The other items are left. -/
  kept : ∀ s i, fresh i → left (call s i).1 = (left s).drop size

/-- One full portion fewer. -/
theorem ceilDiv_sub {n size : Nat} (hn : 0 < n) (hsize : 0 < size) :
    n ⌈/⌉ size = (n - size) ⌈/⌉ size + 1 := by
  by_cases h : size ≤ n
  · rw [Nat.ceilDiv_eq_add_pred_div, Nat.ceilDiv_eq_add_pred_div, ← Nat.add_div_right _ hsize]
    congr 1
    omega
  · have hlast : n - size = 0 := by omega
    rw [hlast, zero_ceilDiv, Nat.zero_add, Nat.ceilDiv_eq_add_pred_div]
    exact Nat.div_eq_of_lt_le (by omega) (by omega)

variable {call : σ → ι → σ × ο} {count : ο → Nat} {items : ο → List β} {left : σ → List β}
  {fresh : ι → Prop} {size : Nat}

/-- The portions are as few as their size permits, none but the last output is
empty, and together they are what was left. -/
theorem HandsOut.untilEmpty_eq (h : HandsOut call count items left fresh size) (hsize : 0 < size) {s : σ}
    {inputs : List ι} (hfresh : ∀ i ∈ inputs, fresh i) (hcalls : (left s).length ⌈/⌉ size < inputs.length) :
    ∃ portions last, untilEmpty call count s inputs = some (portions ++ [last]) ∧
      portions.length = (left s).length ⌈/⌉ size ∧ count last = 0 ∧
      (∀ o ∈ portions, 1 ≤ count o ∧ count o ≤ size) ∧ portions.flatMap items = left s := by
  induction inputs generalizing s with
  | nil => exact absurd hcalls (Nat.not_lt_zero _)
  | cons i inputs ih =>
    have hi := hfresh i List.mem_cons_self
    have hcount : count (call s i).2 = min size (left s).length := by
      rw [← h.counted, h.given s i hi, List.length_take]
    by_cases hleft : (left s).length = 0
    · have hempty : count (call s i).2 = 0 := by
        rw [hcount, hleft, Nat.min_zero]
      refine ⟨[], (call s i).2, ?_, ?_, hempty, List.forall_mem_nil _, ?_⟩
      · rw [untilEmpty, if_pos hempty, List.nil_append]
      · rw [hleft, zero_ceilDiv, List.length_nil]
      · rw [List.flatMap_nil, List.length_eq_zero_iff.mp hleft]
    · have hpages := ceilDiv_sub (Nat.pos_of_ne_zero hleft) hsize
      have hlength : (left (call s i).1).length = (left s).length - size := by
        rw [h.kept s i hi, List.length_drop]
      rw [hpages, List.length_cons, ← hlength] at hcalls
      obtain ⟨portions, last, hrun, hportions, hlast, hfull, hall⟩ :=
        ih (fun i hm => hfresh i (List.mem_cons_of_mem _ hm)) (Nat.lt_of_succ_lt_succ hcalls)
      refine ⟨(call s i).2 :: portions, last, ?_, ?_, hlast, ?_, ?_⟩
      · rw [untilEmpty, if_neg (by omega), hrun, Option.map_some, List.cons_append]
      · rw [List.length_cons, hportions, hlength, hpages]
      · intro o ho
        rcases List.mem_cons.mp ho with rfl | ho
        · omega
        · exact hfull o ho
      · rw [List.flatMap_cons, hall, h.given s i hi, h.kept s i hi, List.take_append_drop]

end CurlHttpfs.Paging
