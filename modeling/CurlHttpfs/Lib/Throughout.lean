import Mathlib.Data.List.Induction
import Mathlib.Data.List.Infix

/-!
# Conditions on every entry of a history

In a history, latest entry last, every entry may be judged by the entries
before it. The judgement of a history unfolds from its end, and a history
that passes has only prefixes that pass.
-/

namespace CurlHttpfs

/-- Every entry passes, given the entries before it. -/
def Throughout {α : Type*} (passes : List α → α → Prop) (history : List α) : Prop :=
  ∀ earlier entry, earlier ++ [entry] <+: history → passes earlier entry

variable {α : Type*} {passes : List α → α → Prop}

theorem throughout_nil : Throughout passes [] := by
  intro earlier entry hle
  exact absurd (List.prefix_nil.mp hle) (List.append_ne_nil_of_right_ne_nil _ (List.cons_ne_nil _ _))

/-- One more entry must pass behind a history that passes. -/
theorem throughout_concat (history : List α) (last : α) :
    Throughout passes (history ++ [last]) ↔ Throughout passes history ∧ passes history last := by
  constructor
  · intro h
    exact ⟨fun earlier entry hle => h earlier entry (hle.trans (List.prefix_append _ _)),
      h history last List.prefix_rfl⟩
  · rintro ⟨hbefore, hlast⟩ earlier entry hle
    rcases List.prefix_concat_iff.mp hle with he | hle
    · obtain ⟨hearlier, hentry⟩ := List.append_inj' he rfl
      rw [hearlier, List.singleton_inj.mp hentry]
      exact hlast
    · exact hbefore earlier entry hle

/-- Entries that pass whatever is before them. -/
theorem throughout_of_forall {history : List α} (h : ∀ entry ∈ history, ∀ earlier, passes earlier entry) :
    Throughout passes history := by
  intro earlier entry hle
  exact h entry (hle.subset (List.mem_append_right _ (List.mem_singleton_self _))) earlier

/-- What holds of a history holds of its prefixes. -/
theorem Throughout.of_prefix {history earlier : List α} (h : Throughout passes history)
    (hle : earlier <+: history) : Throughout passes earlier :=
  fun before entry hbefore => h before entry (hbefore.trans hle)

/-- When behind a good history one more entry is good under exactly its own
condition, all prefixes are good under exactly all these conditions. The
histories considered may be restricted to legal ones. -/
theorem throughout_iff {legal good : List α → Prop} (hnil : good [])
    (hlegal : ∀ history last, legal (history ++ [last]) → legal history)
    (hone : ∀ history last, legal (history ++ [last]) → good history →
      (good (history ++ [last]) ↔ passes history last))
    {history : List α} (h : legal history) :
    Throughout (fun earlier entry => good (earlier ++ [entry])) history ↔ Throughout passes history := by
  have hboth : (Throughout (fun earlier entry => good (earlier ++ [entry])) history ↔
      Throughout passes history) ∧
      (Throughout (fun earlier entry => good (earlier ++ [entry])) history → good history) := by
    induction history using List.reverseRecOn with
    | nil => exact ⟨iff_of_true throughout_nil throughout_nil, fun _ => hnil⟩
    | append_singleton history last ih =>
      obtain ⟨hiff, hlast⟩ := ih (hlegal history last h)
      rw [throughout_concat, throughout_concat, ← hiff]
      exact ⟨and_congr_right fun hbefore => hone history last h (hlast hbefore), And.right⟩
  exact hboth.1

end CurlHttpfs
