import ReleaseAdvisor.Analysis.Warning
import ReleaseAdvisor.Proofs.Analysis.HistoryParts
import ReleaseAdvisor.Proofs.Result
import ReleaseAdvisor.Proofs.Rule.FirstMatch

/-!
# Causes of warnings

The warnings of a report, in terms of the history and the rules that it was made from. The report
keeps of each commit that declares the module's scope the place of the rule that decided it and the
level, and of all of them the most severe level. No place is kept exactly where no rule matches, and
the most severe level is a release exactly if the first matching rule of some commit has one. So a
commit that a rule settles as no release does not count as unmatched.

Whether a rule matches is read off the commit as it was written, without narrowing it.
-/

namespace ReleaseAdvisor

/-- A rule matches a commit that declares a scope. -/
structure Rule.Matches (rule : Rule) (keywords : List String) (scope : String)
    (commit : Commit) : Prop where
  scope : ∀ pattern ∈ rule.scope?, pattern.admits scope
  type : ∀ type ∈ rule.type?, (Header.parse? commit.header).map (·.type) = some type
  breaking : rule.breaking → BreakingNote.isIn commit.body keywords

instance (rule : Rule) (keywords : List String) (scope : String) (commit : Commit) :
    Decidable (rule.Matches keywords scope commit) :=
  decidable_of_iff
    ((∀ pattern ∈ rule.scope?, pattern.admits scope) ∧
      (∀ type ∈ rule.type?, (Header.parse? commit.header).map (·.type) = some type) ∧
      (rule.breaking → BreakingNote.isIn commit.body keywords))
    ⟨fun conditions => ⟨conditions.1, conditions.2.1, conditions.2.2⟩,
      fun rule => ⟨rule.scope, rule.type, rule.breaking⟩⟩

namespace RuleSet

variable (ruleSet : RuleSet) (scope : String) (commit : Commit)

/-- No rule matches the commit. -/
def Ignores : Prop :=
  ∀ rule ∈ ruleSet.rules, ¬rule.Matches ruleSet.keywords scope commit

/-- The first rule that matches the commit causes a release. -/
def Releases : Prop :=
  ∃ rule ∈ ruleSet.rules.find? fun rule => rule.Matches ruleSet.keywords scope commit,
    rule.level ≠ .none

instance : Decidable (ruleSet.Ignores scope commit) :=
  inferInstanceAs (Decidable (∀ rule ∈ ruleSet.rules, _))

instance : Decidable (ruleSet.Releases scope commit) :=
  inferInstanceAs (Decidable (∃ rule ∈ ruleSet.rules.find? _, _))

theorem not_ignores_iff {ruleSet : RuleSet} {scope : String} {commit : Commit} :
    ¬ruleSet.Ignores scope commit ↔
      ∃ rule ∈ ruleSet.rules, rule.Matches ruleSet.keywords scope commit := by
  simp [Ignores]

end RuleSet

section Narrowed

variable {commit : Commit} {scope : String} {own : ScopedCommit}
  (narrowed : commit.narrow? scope = some own)

include narrowed

theorem Rule.admits_eq_matches (rule : Rule) (keywords : List String) :
    rule.admits keywords own = decide (rule.Matches keywords scope commit) := by
  rcases Commit.narrow?_eq_some_iff.mp narrowed with ⟨header, parsed, _, rfl⟩
  apply Bool.eq_iff_iff.mpr
  rw [decide_eq_true_iff]
  constructor
  · intro admitted
    simp only [admits, Bool.and_eq_true, Option.all_eq_true, Bool.or_eq_true] at admitted
    rcases admitted with ⟨⟨scopeAdmitted, typeAdmitted⟩, breakingAdmitted⟩
    refine ⟨scopeAdmitted, ?_, ?_⟩
    · intro type required
      have isType : type = header.type := beq_iff_eq.mp (typeAdmitted type required)
      simp [parsed, isType]
    · intro required
      simpa [required] using breakingAdmitted
  · rintro ⟨scopeMatches, typeMatches, breakingMatches⟩
    simp only [admits, Bool.and_eq_true, Option.all_eq_true, Bool.or_eq_true]
    refine ⟨⟨scopeMatches, ?_⟩, ?_⟩
    · intro type required
      have isType : header.type = type := by
        simpa [parsed] using typeMatches type required
      simp [isType]
    · cases required : rule.breaking with
      | false => simp
      | true => simpa using breakingMatches required

theorem RuleSet.isNone_matched?_classify (ruleSet : RuleSet) :
    (ruleSet.classify own).matched?.isNone ↔ ruleSet.Ignores scope commit := by
  rw [Option.isNone_iff_eq_none, matched?_classify_eq_none_iff, Ignores]
  simp [Rule.admits_eq_matches narrowed]

theorem RuleSet.level_classify_ne_none_iff (ruleSet : RuleSet) :
    (ruleSet.classify own).level ≠ .none ↔ ruleSet.Releases scope commit := by
  rw [level_classify, Releases]
  simp only [Rule.admits_eq_matches narrowed]
  cases ruleSet.rules.find? fun rule => rule.Matches ruleSet.keywords scope commit with
  | none => simp
  | some rule => simp

end Narrowed

namespace Warning

variable {report : Report}

theorem ofSource_eq_nil_iff : ofSource report = [] ↔ report.source = .descriptor := by
  unfold ofSource
  split <;> simp [*]

theorem ofCommits_eq_nil_iff :
    ofCommits report = [] ↔
      report.commits ≠ [] ∧ report.commits.countP (·.verdict.matched?.isNone) = 0 ∧
        report.decision.isRelease := by
  by_cases empty : report.commits = []
  · simp [ofCommits, empty]
  · simp [ofCommits, empty]

end Warning

namespace Module

variable (module : Module) (history : List Commit)

theorem countP_unmatched_analyze :
    (module.analyze history).commits.countP (·.verdict.matched?.isNone) =
      (history.filter (·.declares module.identity.commitScope)).countP
        fun commit => module.rules.Ignores module.identity.commitScope commit := by
  have selected := ScopedCommit.forall₂_select module.identity.commitScope history
  simp only [analyze, RuleSet.judge, List.countP_map]
  refine (selected.countP_eq ?_).symm
  intro commit own narrowed
  rw [decide_eq_true_iff]
  exact (RuleSet.isNone_matched?_classify narrowed module.rules).symm

theorem isRelease_decision_analyze :
    (module.analyze history).decision.isRelease ↔
      ∃ commit ∈ history.filter (·.declares module.identity.commitScope),
        module.rules.Releases module.identity.commitScope commit := by
  have selected := ScopedCommit.forall₂_select module.identity.commitScope history
  have releases : (module.analyze history).decision.isRelease ↔
      ∃ own ∈ ScopedCommit.select module.identity.commitScope history,
        (module.rules.classify own).level ≠ .none := by
    simp [analyze, JudgedCommit.decide, RuleSet.judge, Level.isRelease, bne_iff_ne,
      Level.highest_ne_none_iff]
  rw [releases]
  refine (selected.exists_mem_iff ?_).symm
  intro commit own narrowed
  exact (RuleSet.level_classify_ne_none_iff narrowed module.rules).symm

theorem ofSource_analyze :
    Warning.ofSource (module.analyze history) =
      if module.source = .legacy then [.legacyConfig module.identity.name] else [] := by
  rw [Warning.ofSource]
  cases source : module.source with
  | descriptor => simp [analyze, source]
  | legacy => simp [analyze, source]

theorem ofCommits_analyze :
    let relevant := history.filter (·.declares module.identity.commitScope)
    let unmatched :=
      relevant.countP fun commit => module.rules.Ignores module.identity.commitScope commit
    Warning.ofCommits (module.analyze history) =
      if relevant = [] then
        [.noRelevantCommits module.identity.name module.identity.commitScope]
      else
        (if 0 < unmatched then [.unmatchedCommits module.identity.name unmatched] else []) ++
          (if ∃ commit ∈ relevant, module.rules.Releases module.identity.commitScope commit then []
          else [.noReleaseTriggered module.identity.name relevant.length]) := by
  intro relevant unmatched
  simp only [Warning.ofCommits, length_commits_analyze, countP_unmatched_analyze,
    isRelease_decision_analyze, List.length_eq_zero_iff, Nat.pos_iff_ne_zero, ite_not]
  rfl

end Module

/-- The warnings of a module's report are these, in this order: that the identity comes from a
legacy document, if it does; then either that no commit declares the module's scope, or how many
commits declare it that no rule matches, if there are any, and how many declare it at all, if no
commit's first matching rule causes a release. So there are none exactly if a descriptor names the module,
some rule matches each commit that declares its scope, and one of them causes a release. -/
theorem warnings_state_causes (module : Module) (history : List Commit) :
    let name := module.identity.name
    let scope := module.identity.commitScope
    let rules := module.rules
    let relevant := history.filter (·.declares scope)
    let unmatched := relevant.countP fun commit => rules.Ignores scope commit
    let warnings := Warning.ofReport (module.analyze history)
    warnings =
      (if module.source = .legacy then [.legacyConfig name] else []) ++
        (if relevant = [] then [.noRelevantCommits name scope]
        else
          (if 0 < unmatched then [.unmatchedCommits name unmatched] else []) ++
            (if ∃ commit ∈ relevant, rules.Releases scope commit then []
            else [.noReleaseTriggered name relevant.length])) ∧
    (warnings = [] ↔
      module.source = .descriptor ∧
        (∀ commit ∈ relevant, ∃ rule ∈ rules.rules, rule.Matches rules.keywords scope commit) ∧
        ∃ commit ∈ relevant, rules.Releases scope commit) := by
  intro name scope rules relevant unmatched warnings
  constructor
  · exact congrArg₂ (· ++ ·) (module.ofSource_analyze history) (module.ofCommits_analyze history)
  · have someRelevant : (module.analyze history).commits ≠ [] ↔ relevant ≠ [] := by
      rw [← List.length_pos_iff, module.length_commits_analyze, List.length_pos_iff]
    have noneUnmatched : unmatched = 0 ↔
        ∀ commit ∈ relevant, ∃ rule ∈ rules.rules, rule.Matches rules.keywords scope commit := by
      simp [unmatched, List.countP_eq_zero, RuleSet.not_ignores_iff]
    calc
      warnings = [] ↔
          Warning.ofSource (module.analyze history) = [] ∧
            Warning.ofCommits (module.analyze history) = [] :=
        List.append_eq_nil_iff
      _ ↔ module.source = .descriptor ∧ relevant ≠ [] ∧ unmatched = 0 ∧
          ∃ commit ∈ relevant, rules.Releases scope commit := by
        rw [Warning.ofSource_eq_nil_iff, Warning.ofCommits_eq_nil_iff, someRelevant,
          module.countP_unmatched_analyze, module.isRelease_decision_analyze]
        rfl
      _ ↔ module.source = .descriptor ∧ unmatched = 0 ∧
          ∃ commit ∈ relevant, rules.Releases scope commit := by
        apply and_congr_right'
        apply and_iff_right_of_imp
        rintro ⟨_, commit, commitMem, _⟩
        exact List.ne_nil_of_mem commitMem
      _ ↔ _ := by
        rw [noneUnmatched]

/-- A commit that a rule settles as no release counts as relevant and not as unmatched. -/
example :
    let module : Module := ⟨⟨"m"⟩, ⟨"m", "M", "core", "Mv"⟩, .legacy,
      .ofRules [⟨none, some "chore", false, .none⟩]⟩
    let history : List Commit :=
      [⟨"chore(core): a", ""⟩, ⟨"feat(core, api): b", ""⟩, ⟨"feat(api): c", ""⟩]
    Warning.ofReport (module.analyze history) =
      [.legacyConfig "m", .unmatchedCommits "m" 1, .noReleaseTriggered "m" 2] := by
  decide

end ReleaseAdvisor
