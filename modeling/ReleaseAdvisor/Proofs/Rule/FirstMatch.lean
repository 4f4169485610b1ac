import ReleaseAdvisor.Rule.Set

/-!
# The first matching rule

What a rule set says of a commit, in two forms: rule by rule, for rule lists that are built up, and
by the place of the rule that decides.
-/

namespace ReleaseAdvisor

/-- A verdict as it stands when one more rule comes first. -/
def Verdict.behindOne (verdict : Verdict) : Verdict :=
  { verdict with matched? := verdict.matched?.map (· + 1) }

namespace RuleSet

variable (rule : Rule) (rest : List Rule) (keywords : List String) (commit : ScopedCommit)

theorem classify_cons :
    classify ⟨rule :: rest, keywords⟩ commit =
      if rule.admits keywords commit then ⟨rule.level, some 0⟩
      else (classify ⟨rest, keywords⟩ commit).behindOne := by
  simp only [classify, List.findIdx?_cons]
  cases rule.admits keywords commit with
  | true => rfl
  | false =>
      cases List.findIdx? (·.admits keywords commit) rest with
      | none => rfl
      | some index => rfl

/-- The level of a verdict is that of the first rule that matches. -/
theorem level_classify :
    (classify ⟨rest, keywords⟩ commit).level =
      ((rest.find? (·.admits keywords commit)).map (·.level)).getD .none := by
  induction rest with
  | nil => rfl
  | cons rule rest ih =>
      rw [classify_cons, List.find?_cons]
      cases rule.admits keywords commit with
      | true => rfl
      | false => exact ih

variable {ruleSet : RuleSet} {commit}

theorem classify_eq_matched_iff {level : Level} {index : Nat} :
    ruleSet.classify commit = ⟨level, some index⟩ ↔
      ∃ rule, ruleSet.rules[index]? = some rule ∧ rule.level = level ∧
        rule.admits ruleSet.keywords commit ∧
        ∀ earlier < index, ∀ other, ruleSet.rules[earlier]? = some other →
          other.admits ruleSet.keywords commit = false := by
  constructor
  · intro decided
    unfold classify at decided
    split at decided
    · rename_i found
      simp only [Verdict.mk.injEq, Option.some.injEq] at decided
      rcases decided with ⟨levelEq, rfl⟩
      rcases List.findIdx?_eq_some_iff_getElem.mp found with ⟨inside, admitted, refused⟩
      refine ⟨_, List.getElem?_eq_getElem inside, ?_, admitted, ?_⟩
      · simpa [List.getElem?_eq_getElem inside] using levelEq
      · intro earlier isEarlier other present
        rcases List.getElem?_eq_some_iff.mp present with ⟨_, rfl⟩
        simpa using refused earlier isEarlier
    · simp at decided
  · rintro ⟨rule, present, rfl, admitted, refused⟩
    have found : ruleSet.rules.findIdx? (·.admits ruleSet.keywords commit) = some index := by
      rcases List.getElem?_eq_some_iff.mp present with ⟨inside, rfl⟩
      refine List.findIdx?_eq_some_iff_getElem.mpr ⟨inside, admitted, ?_⟩
      intro earlier isEarlier
      simp [refused earlier isEarlier _ (List.getElem?_eq_getElem (by omega))]
    simp [classify, found, present]

theorem classify_eq_unmatched_iff :
    ruleSet.classify commit = ⟨.none, none⟩ ↔
      ∀ rule ∈ ruleSet.rules, rule.admits ruleSet.keywords commit = false := by
  rw [← List.findIdx?_eq_none_iff, classify]
  split
  · rename_i found
    simp [found]
  · rename_i unfound
    simp [unfound]

theorem matched?_classify_eq_none_iff :
    (ruleSet.classify commit).matched? = none ↔
      ∀ rule ∈ ruleSet.rules, rule.admits ruleSet.keywords commit = false := by
  rw [← classify_eq_unmatched_iff]
  constructor
  · unfold classify
    split <;> simp
  · intro unmatched
    rw [unmatched]

end RuleSet

end ReleaseAdvisor
