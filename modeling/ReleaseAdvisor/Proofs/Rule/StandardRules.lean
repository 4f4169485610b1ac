import ReleaseAdvisor.Analysis.Report
import ReleaseAdvisor.Proofs.Commit.Narrowing
import ReleaseAdvisor.Proofs.Level.Severity
import ReleaseAdvisor.Proofs.Rule.FirstMatch

/-!
# The standard rules

What the standard rules say of the commits of their own module. They are written in terms of the
module's scope, and a scope that starts with an exclamation mark turns them around: the rules for the
module's own commits then exclude the scope without the mark, which the module's commits do not have
either. So whatever the scope is, these rules let its commits through, and the closing rule for
other scopes does not.
-/

namespace ReleaseAdvisor

namespace ScopePattern

theorem admits_parse_self (scope : String) : (parse scope).admits scope := by
  unfold parse
  split
  · rename_i excluded negated
    -- The scope is longer than what it excludes.
    simp only [admits, bne_iff_ne, ne_eq]
    intro same
    have lengths : scope.toList.length = excluded.length := by
      rw [same, String.toList_ofList]
    rw [negated, List.length_cons] at lengths
    omega
  · simp [admits]

theorem parse_negation (scope : String) : parse ("!" ++ scope) = .isNot scope := by
  simp [parse]

end ScopePattern

namespace RuleSet

/-- The types that the standard rules give a patch, in the order of their rules. -/
def patchTypes : List String :=
  ["fix", "perf", "revert", "docs", "refactor"]

/-- What the standard rules say of a commit of their own scope, and by which rule. -/
def standardVerdict (keywords : List String) (commit : ScopedCommit) : Verdict :=
  if BreakingNote.isIn commit.body keywords then ⟨.major, some 0⟩
  else if commit.type = "feat" then ⟨.minor, some 1⟩
  else
    match patchTypes.idxOf? commit.type with
    | some index => ⟨.patch, some (2 + index)⟩
    | none => ⟨.none, none⟩

variable (keywords : List String) (commit : ScopedCommit)

theorem admits_own (type? : Option String) (breaking : Bool) (level : Level) :
    Rule.admits ⟨some (.parse commit.scope), type?, breaking, level⟩ keywords commit =
      (type?.all (· == commit.type) &&
        (!breaking || BreakingNote.isIn commit.body keywords)) := by
  simp [Rule.admits, ScopePattern.admits_parse_self]

theorem admits_foreign (type? : Option String) (breaking : Bool) (level : Level) :
    Rule.admits ⟨some (.parse ("!" ++ commit.scope)), type?, breaking, level⟩ keywords commit =
      false := by
  simp [Rule.admits, ScopePattern.parse_negation, ScopePattern.admits]

/-- The rules that give some types a patch, before the rule for other scopes. -/
theorem classify_patches (types : List String) :
    classify
        ⟨types.map (⟨some (.parse commit.scope), some ·, false, .patch⟩) ++
          [⟨some (.parse ("!" ++ commit.scope)), none, false, .none⟩], keywords⟩ commit =
      match types.idxOf? commit.type with
      | some index => ⟨.patch, some index⟩
      | none => ⟨.none, none⟩ := by
  induction types with
  | nil =>
      rw [List.map_nil, List.nil_append, classify_cons, admits_foreign]
      rfl
  | cons type rest ih =>
      rw [List.map_cons, List.cons_append, classify_cons, ih, admits_own, List.idxOf?_cons]
      by_cases isType : type = commit.type
      · simp [isType]
      · simp only [Option.all_some, beq_iff_eq, isType, Bool.and_eq_true, if_false, false_and]
        cases rest.idxOf? commit.type with
        | none => rfl
        | some index => rfl

theorem withKeywords_standard (scope : String) (declared : keywords ≠ []) :
    (standard scope).withKeywords keywords =
      ⟨⟨some (.parse scope), none, true, .major⟩ ::
        ⟨some (.parse scope), some "feat", false, .minor⟩ ::
        (patchTypes.map (⟨some (.parse scope), some ·, false, .patch⟩) ++
          [⟨some (.parse ("!" ++ scope)), none, false, .none⟩]), keywords⟩ := by
  rw [withKeywords, if_neg (by simpa using declared)]
  rfl

theorem classify_standard (declared : keywords ≠ []) :
    ((standard commit.scope).withKeywords keywords).classify commit =
      standardVerdict keywords commit := by
  rw [withKeywords_standard keywords commit.scope declared, classify_cons, classify_cons,
    classify_patches, admits_own, admits_own, standardVerdict]
  cases BreakingNote.isIn commit.body keywords with
  | true => simp
  | false =>
      by_cases isFeature : commit.type = "feat"
      · simp [isFeature, Verdict.behindOne]
      · have notFeature : ("feat" == commit.type) = false := by
          simpa using Ne.symm isFeature
        simp only [isFeature, Option.all_some, Option.all_none, notFeature, Bool.not_true,
          Bool.or_false, Bool.and_false, Bool.false_and, Bool.false_eq_true, if_false]
        cases patchTypes.idxOf? commit.type with
        | none => rfl
        | some index => simp [Verdict.behindOne]; omega

theorem standardVerdict_matched?_ne : (standardVerdict keywords commit).matched? ≠ some 7 := by
  unfold standardVerdict
  split
  · simp
  · split
    · simp
    · split
      · rename_i index found
        have inside : index < patchTypes.length := (List.idxOf?_eq_some_iff.mp found).1
        simp only [patchTypes, List.length_cons, List.length_nil] at inside
        simp only [ne_eq, Option.some.injEq]
        omega
      · simp

theorem level_standardVerdict :
    (standardVerdict keywords commit).level =
      if BreakingNote.isIn commit.body keywords then .major
      else if commit.type = "feat" then .minor
      else if commit.type ∈ patchTypes then .patch else .none := by
  unfold standardVerdict
  split
  · rfl
  · split
    · rfl
    · split
      · rename_i found
        have isPatch : commit.type ∈ patchTypes := by
          rcases List.idxOf?_eq_some_iff.mp found with ⟨_, isType, _⟩
          exact isType ▸ List.getElem_mem _
        rw [if_pos isPatch]
      · rename_i unfound
        rw [if_neg (by simpa using unfound)]

variable {keywords commit}

theorem major_le_standardVerdict_iff :
    .major ≤ (standardVerdict keywords commit).level ↔
      BreakingNote.isIn commit.body keywords := by
  rw [level_standardVerdict]
  split_ifs <;> simp +decide [*]

theorem minor_le_standardVerdict_iff :
    .minor ≤ (standardVerdict keywords commit).level ↔
      BreakingNote.isIn commit.body keywords ∨ commit.type = "feat" := by
  rw [level_standardVerdict]
  split_ifs <;> simp +decide [*]

theorem patch_le_standardVerdict_iff :
    .patch ≤ (standardVerdict keywords commit).level ↔
      BreakingNote.isIn commit.body keywords ∨ commit.type = "feat" ∨
        commit.type ∈ patchTypes := by
  rw [level_standardVerdict]
  split_ifs <;> simp +decide [*]

end RuleSet

theorem RuleSet.judge_standard {keywords : List String} (declared : keywords ≠ [])
    (scope : String) (history : List Commit) :
    ((standard scope).withKeywords keywords).judge scope history =
      (ScopedCommit.select scope history).map fun commit =>
        ⟨commit, standardVerdict keywords commit⟩ := by
  apply List.map_congr_left
  intro commit selected
  rw [← ScopedCommit.scope_of_mem_select selected, classify_standard keywords commit declared]

theorem JudgedCommit.le_decide_iff {level : Level} (isRelease : level ≠ .none)
    {commits : List JudgedCommit} :
    level ≤ decide commits ↔ ∃ judged ∈ commits, level ≤ judged.verdict.level := by
  simp [decide, Level.le_highest_iff, isRelease]

/-- Under the standard rules of its own scope, whatever that is, a module gives each of its commits
the verdict of the table: major for a breaking change, else minor for a feature, else a patch for
the types that have one, else nothing. The closing rule never decides. So the module's decision is
major if one of its commits is a breaking change, else minor if one is a feature, else a patch if
one has such a type, else none. -/
theorem standard_rules_decide (module : Module) {keywords : List String}
    (declared : keywords ≠ []) (history : List Commit) :
    let scope := module.identity.commitScope
    let rules := (RuleSet.standard scope).withKeywords keywords
    let report := { module with rules }.analyze history
    let own := ScopedCommit.select scope history
    let breaking := ∃ commit ∈ own, BreakingNote.isIn commit.body keywords
    let feature := ∃ commit ∈ own, commit.type = "feat"
    let maintenance := ∃ commit ∈ own, commit.type ∈ RuleSet.patchTypes
    report.commits = own.map (fun commit => ⟨commit, RuleSet.standardVerdict keywords commit⟩) ∧
    (∀ judged ∈ report.commits, judged.verdict.matched? ≠ some 7) ∧
    (report.decision = .major ↔ breaking) ∧
    (report.decision = .minor ↔ ¬breaking ∧ feature) ∧
    (report.decision = .patch ↔ ¬breaking ∧ ¬feature ∧ maintenance) ∧
    (report.decision = .none ↔ ¬breaking ∧ ¬feature ∧ ¬maintenance) := by
  intro scope rules report own breaking feature maintenance
  have commits : report.commits =
      own.map fun commit => ⟨commit, RuleSet.standardVerdict keywords commit⟩ :=
    RuleSet.judge_standard declared scope history
  have reaches : ∀ level : Level, level ≠ .none →
      (level ≤ report.decision ↔
        ∃ commit ∈ own, level ≤ (RuleSet.standardVerdict keywords commit).level) := by
    intro level isRelease
    have decision : report.decision = JudgedCommit.decide report.commits := rfl
    rw [decision, JudgedCommit.le_decide_iff isRelease, commits]
    simp
  have major : .major ≤ report.decision ↔ breaking := by
    simp [reaches, RuleSet.major_le_standardVerdict_iff, breaking]
  have minor : .minor ≤ report.decision ↔ breaking ∨ feature := by
    simp [reaches, RuleSet.minor_le_standardVerdict_iff, breaking, feature, and_or_left,
      exists_or]
  have patch : .patch ≤ report.decision ↔ breaking ∨ feature ∨ maintenance := by
    simp [reaches, RuleSet.patch_le_standardVerdict_iff, breaking, feature, maintenance,
      and_or_left, exists_or]
  refine ⟨commits, ?_, ?_, ?_, ?_, ?_⟩
  · rw [commits]
    intro judged judgedMem
    rcases List.mem_map.mp judgedMem with ⟨commit, _, rfl⟩
    exact RuleSet.standardVerdict_matched?_ne keywords commit
  · rw [Level.eq_major_iff, major]
  · rw [Level.eq_minor_iff, major, minor]
    grind
  · rw [Level.eq_patch_iff, minor, patch]
    grind
  · rw [Level.eq_none_iff, patch]
    grind

/-- The scope starts with an exclamation mark, so the rules for the module's own commits are
written as exclusions of `core`, and the closing one excludes the scope itself. -/
theorem standard_rules_decide_negated_scope :
    let module : Module := ⟨⟨"m"⟩, ⟨"m", "M", "!core", "Mv"⟩, .descriptor, .ofRules []⟩
    let history : List Commit := [⟨"docs(!core): a", "BREAKING CHANGE: b"⟩,
      ⟨"feat(core): c", "NOTE: d"⟩, ⟨"feat(api,!core): e", ""⟩, ⟨"chore(!core): f", ""⟩]
    let rules := (RuleSet.standard "!core").withKeywords ["NOTE"]
    let report := { module with rules }.analyze history
    ["NOTE"] ≠ [] ∧
      report.commits.map (·.verdict) = [⟨.patch, some 5⟩, ⟨.minor, some 1⟩, ⟨.none, none⟩] ∧
      (∃ judged ∈ report.commits, judged.commit.type = "chore" ∧
        judged.verdict.matched? ≠ some 7) ∧
      report.decision = .minor := by
  intro module history rules report
  have declared : ["NOTE"] ≠ [] := by
    decide
  have decides := standard_rules_decide module declared history
  have last : report.commits[2]? =
      some ⟨⟨"chore", "!core", "f", "chore(!core): f", "chore(!core): f", ""⟩, .none, none⟩ := by
    decide
  refine ⟨declared, ?_, ⟨_, List.mem_of_getElem? last, rfl, ?_⟩, ?_⟩
  · rw [decides.1]
    decide
  · exact decides.2.1 _ (List.mem_of_getElem? last)
  · exact decides.2.2.2.1.mpr ⟨by decide, by decide⟩

end ReleaseAdvisor
