import Mathlib.Data.List.Basic

/-!
# What must come later in a history

In a history, latest entry last, every entry of one sort may be required to
have a later entry of another sort, as every acquisition has a release. The
requirement is a condition on the history alone and unfolds from its end.
-/

namespace CurlHttpfs

/-- Every entry with the first property has a later entry with the second. -/
def Followed {α : Type*} (needs gives : α → Prop) (history : List α) : Prop :=
  ∀ before entry after, history = before ++ entry :: after → needs entry → ∃ later ∈ after, gives later

variable {α : Type*} {needs gives : α → Prop}

theorem followed_nil : Followed needs gives ([] : List α) := by
  intro before entry after h
  exact absurd h.symm (List.append_ne_nil_of_right_ne_nil _ (List.cons_ne_nil _ _))

/-- One more entry must not need anything and, if it gives, settles all needs before it. -/
theorem followed_concat (history : List α) (last : α) :
    Followed needs gives (history ++ [last]) ↔
      (Followed needs gives history ∨ gives last) ∧ ¬needs last := by
  constructor
  · intro h
    have hlast : ¬needs last := by
      intro hn
      obtain ⟨later, hlater, -⟩ := h history last [] rfl hn
      exact List.not_mem_nil hlater
    refine ⟨?_, hlast⟩
    by_cases hg : gives last
    · exact .inr hg
    · refine .inl fun before entry after he hn => ?_
      have hlong : history ++ [last] = before ++ entry :: (after ++ [last]) := by
        rw [he, List.append_assoc]
        rfl
      obtain ⟨later, hlater, hgives⟩ := h before entry (after ++ [last]) hlong hn
      rcases List.mem_append.mp hlater with hmem | hmem
      · exact ⟨later, hmem, hgives⟩
      · exact absurd (List.mem_singleton.mp hmem ▸ hgives) hg
  · rintro ⟨hor, hlast⟩ before entry after he hn
    rcases List.eq_nil_or_concat' after with rfl | ⟨middle, final, rfl⟩
    · obtain ⟨-, hentry⟩ := List.append_inj' he rfl
      exact absurd ((List.cons.inj hentry).1 ▸ hn) hlast
    · rw [← List.cons_append, ← List.append_assoc] at he
      obtain ⟨hhistory, hfinal⟩ := List.append_inj' he rfl
      rcases hor with hf | hg
      · obtain ⟨later, hlater, hgives⟩ := hf before entry middle hhistory hn
        exact ⟨later, List.mem_append_left _ hlater, hgives⟩
      · refine ⟨last, ?_, hg⟩
        rw [(List.cons.inj hfinal).1]
        exact List.mem_append_right _ (List.mem_singleton_self _)

end CurlHttpfs
