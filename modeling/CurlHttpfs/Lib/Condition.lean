import CurlHttpfs.Lib.Census

/-!
# Condition variables

The parties that wait on a condition variable are those in its waiting
position. A notification moves one of them, chosen arbitrarily, or all of
them to the position in which they check their predicate again.
-/

namespace CurlHttpfs

variable {ι β : Type*} [DecidableEq ι]

/-- `notify_one` picks one arbitrary party of the wait set, if there is one. -/
def NotifyOne (waits : ι → Prop) : Option ι → Prop
  | none => ∀ i, ¬waits i
  | some i => waits i

instance [Fintype ι] (waits : ι → Prop) [DecidablePred waits] (woken : Option ι) :
    Decidable (NotifyOne waits woken) :=
  match woken with
  | none => inferInstanceAs (Decidable (∀ i, ¬waits i))
  | some i => inferInstanceAs (Decidable (waits i))

omit [DecidableEq ι] in
/-- There is always a choice. -/
theorem exists_notifyOne (waits : ι → Prop) : ∃ woken, NotifyOne waits woken := by
  by_cases hwaits : ∃ i, waits i
  · obtain ⟨i, hi⟩ := hwaits
    exact ⟨some i, hi⟩
  · exact ⟨none, not_exists.mp hwaits⟩

/-- The positions after the chosen party was resumed. -/
def resumeOne (pc : ι → β) (woken : Option ι) (resumed : β) : ι → β :=
  match woken with
  | none => pc
  | some i => Function.update pc i resumed

/-- The positions after the whole wait set was resumed. -/
def resumeAll [DecidableEq β] (pc : ι → β) (waiting resumed : β) : ι → β :=
  fun i => if pc i = waiting then resumed else pc i

/-- A party keeps its position or was waiting and is resumed. -/
theorem resumeOne_cases {pc : ι → β} {waiting : β} (resumed : β) {woken : Option ι}
    (h : NotifyOne (fun i => pc i = waiting) woken) (i : ι) :
    resumeOne pc woken resumed i = pc i ∨ pc i = waiting ∧ resumeOne pc woken resumed i = resumed := by
  cases woken with
  | none => exact .inl rfl
  | some j =>
    by_cases hi : i = j
    · subst hi
      exact .inr ⟨h, Function.update_self _ _ _⟩
    · exact .inl (Function.update_of_ne hi _ _)

/-- When somebody waits, somebody is resumed. -/
theorem resumeOne_resumes {pc : ι → β} {waiting : β} (resumed : β) {woken : Option ι}
    (h : NotifyOne (fun i => pc i = waiting) woken) {i : ι} (hi : pc i = waiting) :
    ∃ j, resumeOne pc woken resumed j = resumed := by
  cases woken with
  | none => exact absurd hi (h i)
  | some j => exact ⟨j, Function.update_self _ _ _⟩

/-! ## Notifications and counts -/

variable [Fintype ι] {p : β → Prop} [DecidablePred p] {pc : ι → β}

/-- Resuming one party does not count when neither position has the property. -/
theorem census_resumeOne {waiting resumed : β} {woken : Option ι}
    (hone : NotifyOne (fun i => pc i = waiting) woken) (hwaiting : ¬p waiting) (hresumed : ¬p resumed) :
    census p (resumeOne pc woken resumed) = census p pc := by
  refine census_congr fun i => ?_
  rcases resumeOne_cases resumed hone i with hkept | ⟨hbefore, hafter⟩
  · rw [hkept]
  · rw [hbefore, hafter]
    exact iff_of_false hresumed hwaiting

omit [DecidableEq ι] in
/-- Nor does resuming them all. -/
theorem census_resumeAll [DecidableEq β] {waiting resumed : β} (hwaiting : ¬p waiting)
    (hresumed : ¬p resumed) : census p (resumeAll pc waiting resumed) = census p pc := by
  refine census_congr fun i => ?_
  unfold resumeAll
  split
  · rename_i hbefore
    rw [hbefore]
    exact iff_of_false hresumed hwaiting
  · exact Iff.rfl

end CurlHttpfs
