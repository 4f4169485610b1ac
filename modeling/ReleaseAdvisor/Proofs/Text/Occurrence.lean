import Mathlib.Data.List.Infix
import ReleaseAdvisor.Text.Occurrence

/-!
# First occurrences

What the search for a pattern finds. A pattern occurs in a text if the text is something, the
pattern and something. The first occurrence is the one with the least before it, also where
occurrences overlap, and where the pattern is empty it is the start. Taking it out leaves nothing
only of an empty text and of the pattern itself.
-/

namespace ReleaseAdvisor.Text

variable {pattern text : List Char}

theorem occursIn_iff : occursIn pattern text ↔ pattern <:+: text := by
  induction text with
  | nil => simp [occursIn]
  | cons character rest ih =>
      rw [occursIn, Bool.or_eq_true, List.isPrefixOf_iff_prefix, ih, List.infix_cons_iff]

/-- What remains of a text when the first occurrence of a pattern is taken out. A text without an
occurrence remains as it is. -/
inductive FirstErased (pattern text : List Char) : List Char → Prop where
  | absent : ¬pattern <:+: text → FirstErased pattern text text
  | erased (before after : List Char) : text = before ++ pattern ++ after →
      (∀ earlier later, text = earlier ++ pattern ++ later → before.length ≤ earlier.length) →
      FirstErased pattern text (before ++ after)

theorem firstErased_eraseFirst (pattern text : List Char) :
    FirstErased pattern text (eraseFirst pattern text) := by
  induction text with
  | nil =>
      cases pattern with
      | nil => exact FirstErased.erased [] [] rfl (by simp)
      | cons first others => exact FirstErased.absent (by simp)
  | cons character rest ih =>
      rw [eraseFirst]
      split
      · rename_i atStart
        rcases List.isPrefixOf_iff_prefix.mp atStart with ⟨after, split⟩
        rw [← split, List.drop_left]
        exact FirstErased.erased [] after rfl (by simp)
      · rename_i notAtStart
        rw [List.isPrefixOf_iff_prefix] at notAtStart
        generalize eraseFirst pattern rest = remains at ih
        cases ih with
        | absent noOccurrence =>
            refine FirstErased.absent ?_
            rw [List.infix_cons_iff, not_or]
            exact ⟨notAtStart, noOccurrence⟩
        | erased before after restSplit isFirst =>
            refine FirstErased.erased (character :: before) after (by simp [restSplit]) ?_
            intro earlier later otherSplit
            cases earlier with
            | nil => exact absurd ⟨later, otherSplit.symm⟩ notAtStart
            | cons first others =>
                rw [List.cons_append, List.cons_append, List.cons.injEq] at otherSplit
                exact Nat.succ_le_succ (isFirst others later otherSplit.2)

theorem FirstErased.unique {remains others : List Char}
    (leaves : FirstErased pattern text remains) (leavesOthers : FirstErased pattern text others) :
    remains = others := by
  cases leaves with
  | absent noOccurrence =>
      cases leavesOthers with
      | absent => rfl
      | erased before after split => exact absurd ⟨before, after, split.symm⟩ noOccurrence
  | erased before after split isFirst =>
      cases leavesOthers with
      | absent noOccurrence => exact absurd ⟨_, _, split.symm⟩ noOccurrence
      | erased otherBefore otherAfter otherSplit otherIsFirst =>
          have sameLength : before.length = otherBefore.length :=
            Nat.le_antisymm (isFirst _ _ otherSplit) (otherIsFirst _ _ split)
          rw [split, List.append_assoc, List.append_assoc] at otherSplit
          rcases List.append_inj otherSplit sameLength with ⟨rfl, rest⟩
          rw [List.append_cancel_left rest]

theorem firstErased_iff {remains : List Char} :
    FirstErased pattern text remains ↔ eraseFirst pattern text = remains := by
  constructor
  · exact fun leaves => (firstErased_eraseFirst pattern text).unique leaves
  · rintro rfl
    exact firstErased_eraseFirst pattern text

theorem FirstErased.text_of_nothing {remains : List Char}
    (leaves : FirstErased pattern text remains) (nothing : remains = []) :
    text = [] ∨ text = pattern := by
  cases leaves with
  | absent => exact Or.inl nothing
  | erased before after split =>
      rcases List.append_eq_nil_iff.mp nothing with ⟨rfl, rfl⟩
      exact Or.inr (by simpa using split)

theorem eraseFirst_eq_nil_iff : eraseFirst pattern text = [] ↔ text = [] ∨ text = pattern := by
  constructor
  · exact (firstErased_eraseFirst pattern text).text_of_nothing
  · rintro (rfl | rfl)
    · rfl
    · rw [← firstErased_iff]
      exact FirstErased.erased [] [] (by simp) (by simp)

end ReleaseAdvisor.Text
