import ReleaseAdvisor.Level

/-!
# Severity

The most severe of some levels reaches a level exactly if one of them does. With the thresholds
that tell the levels apart this says which level it is. Two levels that reach the same levels are
equal, so the thresholds also say how the most severe level of a list comes from those of its parts.
-/

namespace ReleaseAdvisor.Level

variable {level left right : Level} {levels : List Level}

theorem le_none_iff : level ≤ .none ↔ level = .none := by
  cases level <;> decide

theorem le_max_iff : level ≤ max left right ↔ level ≤ left ∨ level ≤ right := by
  cases left <;> cases right <;> cases level <;> decide

theorem le_highest_iff :
    level ≤ highest levels ↔ level = .none ∨ ∃ other ∈ levels, level ≤ other := by
  have le_foldl_max_iff : ∀ first : Level,
      level ≤ levels.foldl max first ↔ level ≤ first ∨ ∃ other ∈ levels, level ≤ other := by
    induction levels with
    | nil => simp
    | cons next rest ih =>
        intro first
        rw [List.foldl_cons, ih, le_max_iff]
        simp [or_assoc]
  rw [highest, le_foldl_max_iff, le_none_iff]

theorem eq_major_iff : level = .major ↔ .major ≤ level := by
  cases level <;> decide

theorem eq_minor_iff : level = .minor ↔ ¬.major ≤ level ∧ .minor ≤ level := by
  cases level <;> decide

theorem eq_patch_iff : level = .patch ↔ ¬.minor ≤ level ∧ .patch ≤ level := by
  cases level <;> decide

theorem eq_none_iff : level = .none ↔ ¬.patch ≤ level := by
  cases level <;> decide

theorem highest_ne_none_iff : highest levels ≠ .none ↔ ∃ level ∈ levels, level ≠ .none := by
  have reached : .patch ≤ highest levels ↔ ∃ level ∈ levels, .patch ≤ level := by
    simp [le_highest_iff]
  simp only [ne_eq, eq_none_iff, Decidable.not_not, reached]

theorem le_refl (level : Level) : level ≤ level :=
  Nat.le_refl level.rank

theorem le_trans {lower middle upper : Level} (below : lower ≤ middle) (above : middle ≤ upper) :
    lower ≤ upper :=
  Nat.le_trans below above

theorem none_le (level : Level) : .none ≤ level :=
  Nat.zero_le level.rank

theorem le_antisymm (below : left ≤ right) (above : right ≤ left) : left = right := by
  revert below above
  cases left <;> cases right <;> decide

theorem eq_of_forall_le_iff (reach : ∀ level : Level, level ≤ left ↔ level ≤ right) :
    left = right := by
  apply le_antisymm
  · exact (reach left).mp (le_refl left)
  · exact (reach right).mpr (le_refl right)

theorem highest_append (front back : List Level) :
    highest (front ++ back) = max (highest front) (highest back) := by
  apply eq_of_forall_le_iff
  intro level
  simp only [le_max_iff, le_highest_iff, List.mem_append, or_and_right, exists_or]
  exact or_or_distrib_left

theorem highest_mono {fewer more : List Level} (included : fewer ⊆ more) :
    highest fewer ≤ highest more := by
  rcases le_highest_iff.mp (le_refl (highest fewer)) with isNone | ⟨level, levelMem, reached⟩
  · rw [isNone]
    exact none_le (highest more)
  · exact le_highest_iff.mpr (Or.inr ⟨level, included levelMem, reached⟩)

theorem highest_eq_iff (isRelease : level ≠ .none) :
    highest levels = level ↔ level ∈ levels ∧ ∀ other ∈ levels, other ≤ level := by
  constructor
  · rintro rfl
    have bounds : ∀ other ∈ levels, other ≤ highest levels := by
      intro other otherMem
      exact le_highest_iff.mpr (Or.inr ⟨other, otherMem, le_refl other⟩)
    rcases le_highest_iff.mp (le_refl (highest levels)) with isNone | ⟨top, topMem, reached⟩
    · contradiction
    · have isTop : highest levels = top := le_antisymm reached (bounds top topMem)
      rw [isTop] at bounds ⊢
      exact ⟨topMem, bounds⟩
  · rintro ⟨levelMem, bounds⟩
    apply le_antisymm
    · rcases le_highest_iff.mp (le_refl (highest levels)) with isNone | ⟨top, topMem, reached⟩
      · rw [isNone]
        exact none_le level
      · exact le_trans reached (bounds top topMem)
    · exact le_highest_iff.mpr (Or.inr ⟨level, levelMem, le_refl level⟩)

end ReleaseAdvisor.Level
