import ReleaseAdvisor.Analysis.Report
import ReleaseAdvisor.Proofs.Commit.Narrowing
import ReleaseAdvisor.Proofs.Rule.FirstMatch

/-!
# Scope patterns within one module

All commits that a module judges have the module's own scope, so each scope pattern says the same
of all of them. A rule whose pattern refuses the scope never matches and can be left out, and a
pattern that admits the scope can be dropped from its rule. A list of rules may be revised in this
way at any of its places. The rules that stay keep their order, so the first of them that matches
is still the one that decides, and its place is the number of rules that stay before it.
-/

namespace ReleaseAdvisor

def Rule.admitsScope (rule : Rule) (scope : String) : Bool :=
  rule.scope?.all (·.admits scope)

/-- What may become of a rule. -/
inductive Revision where
  | keep
  | loosen
  | delete
  deriving DecidableEq, Repr

namespace Revision

/-- The revisions that make no difference to commits of a scope. -/
def Suits (revision : Revision) (scope : String) (rule : Rule) : Prop :=
  match revision with
  | .keep => True
  | .loosen => rule.admitsScope scope
  | .delete => rule.admitsScope scope = false

instance (revision : Revision) (scope : String) (rule : Rule) :
    Decidable (revision.Suits scope rule) :=
  match revision with
  | .keep => inferInstanceAs (Decidable True)
  | .loosen => inferInstanceAs (Decidable (rule.admitsScope scope = true))
  | .delete => inferInstanceAs (Decidable (rule.admitsScope scope = false))

def result? (revision : Revision) (rule : Rule) : Option Rule :=
  match revision with
  | .keep => some rule
  | .loosen => some { rule with scope? := none }
  | .delete => none

end Revision

/-- A rule and what becomes of it in a module with a certain scope. -/
structure RevisedRule (scope : String) where
  rule : Rule
  revision : Revision
  suits : revision.Suits scope rule

namespace RevisedRule

variable {scope : String}

/-- What is left of the rule. -/
def result? (revised : RevisedRule scope) : Option Rule :=
  revised.revision.result? revised.rule

/-- The rules before the revision. -/
def original (list : List (RevisedRule scope)) : List Rule :=
  list.map (·.rule)

/-- The rules after the revision. -/
def remaining (list : List (RevisedRule scope)) : List Rule :=
  list.filterMap result?

/-- The new place of a rule: the number of rules that are left before it. -/
def newPlace (list : List (RevisedRule scope)) (place : Nat) : Nat :=
  (remaining (list.take place)).length

end RevisedRule

section Renumbered

variable {scope : String} (list : List (RevisedRule scope))

/-- A verdict that names the deciding rule by its new place. -/
def Verdict.renumbered (verdict : Verdict) : Verdict :=
  { verdict with matched? := verdict.matched?.map (RevisedRule.newPlace list) }

def JudgedCommit.renumbered (judged : JudgedCommit) : JudgedCommit :=
  { judged with verdict := judged.verdict.renumbered list }

end Renumbered

/-! ## One rule -/

theorem Rule.admits_eq (rule : Rule) (keywords : List String) (commit : ScopedCommit) :
    rule.admits keywords commit =
      (rule.admitsScope commit.scope &&
        Rule.admits { rule with scope? := none } keywords commit) := by
  simp [admits, admitsScope, Bool.and_assoc]

namespace RevisedRule

variable {keywords : List String} {commit : ScopedCommit}

theorem admits_eq_false_of_result? {revised : RevisedRule commit.scope}
    (deleted : revised.result? = none) : revised.rule.admits keywords commit = false := by
  rcases revised with ⟨rule, revision, suits⟩
  cases revision with
  | keep => simp [result?, Revision.result?] at deleted
  | loosen => simp [result?, Revision.result?] at deleted
  | delete =>
      rw [Rule.admits_eq, suits]
      rfl

theorem admits_of_result? {revised : RevisedRule commit.scope} {rule : Rule}
    (left : revised.result? = some rule) :
    rule.admits keywords commit = revised.rule.admits keywords commit := by
  rcases revised with ⟨before, revision, suits⟩
  cases revision with
  | keep =>
      cases left
      rfl
  | loosen =>
      cases left
      have admitted : before.admitsScope commit.scope := suits
      rw [Rule.admits_eq before, admitted, Bool.true_and]
  | delete => contradiction

theorem level_of_result? {scope : String} {revised : RevisedRule scope} {rule : Rule}
    (left : revised.result? = some rule) : rule.level = revised.rule.level := by
  rcases revised with ⟨before, revision, suits⟩
  cases revision with
  | keep => cases left; rfl
  | loosen => cases left; rfl
  | delete => contradiction

theorem exists_result?_of_admitsScope {scope : String} (revised : RevisedRule scope)
    (admitted : revised.rule.admitsScope scope) : ∃ rule, revised.result? = some rule := by
  rcases revised with ⟨before, revision, suits⟩
  cases revision with
  | keep => exact ⟨_, rfl⟩
  | loosen => exact ⟨_, rfl⟩
  | delete =>
      have refused : before.admitsScope scope = false := suits
      simp [refused] at admitted

/-! ## A list of rules -/

section Places

variable {scope : String} {revised : RevisedRule scope} (rest : List (RevisedRule scope))

theorem newPlace_succ_of_deleted (deleted : revised.result? = none) (place : Nat) :
    newPlace (revised :: rest) (place + 1) = newPlace rest place := by
  simp [newPlace, remaining, deleted]

theorem newPlace_succ_of_left {rule : Rule} (left : revised.result? = some rule) (place : Nat) :
    newPlace (revised :: rest) (place + 1) = newPlace rest place + 1 := by
  simp [newPlace, remaining, left]

/-- What is left of a rule stands in its new place. -/
theorem getElem?_newPlace {list : List (RevisedRule scope)} {place : Nat} {rule : Rule}
    (present : list[place]? = some revised) (left : revised.result? = some rule) :
    (remaining list)[newPlace list place]? = some rule := by
  have split : list = list.take place ++ revised :: list.drop (place + 1) := by
    rcases List.getElem?_eq_some_iff.mp present with ⟨inside, rfl⟩
    simp
  have parts : remaining list =
      remaining (list.take place) ++ rule :: remaining (list.drop (place + 1)) := by
    calc
      remaining list = remaining (list.take place ++ revised :: list.drop (place + 1)) :=
        congrArg remaining split
      _ = remaining (list.take place) ++ rule :: remaining (list.drop (place + 1)) := by
        simp [remaining, left]
  simp [parts, newPlace]

end Places

theorem renumbered_behindOne_of_deleted {scope : String} {revised : RevisedRule scope}
    (deleted : revised.result? = none) (rest : List (RevisedRule scope)) (verdict : Verdict) :
    verdict.behindOne.renumbered (revised :: rest) = verdict.renumbered rest := by
  simp [Verdict.renumbered, Verdict.behindOne, Function.comp_def,
    newPlace_succ_of_deleted rest deleted]

theorem renumbered_behindOne_of_left {scope : String} {revised : RevisedRule scope} {rule : Rule}
    (left : revised.result? = some rule) (rest : List (RevisedRule scope)) (verdict : Verdict) :
    verdict.behindOne.renumbered (revised :: rest) = (verdict.renumbered rest).behindOne := by
  simp [Verdict.renumbered, Verdict.behindOne, Function.comp_def,
    newPlace_succ_of_left rest left]

theorem classify_remaining (list : List (RevisedRule commit.scope)) :
    RuleSet.classify ⟨remaining list, keywords⟩ commit =
      (RuleSet.classify ⟨original list, keywords⟩ commit).renumbered list := by
  induction list with
  | nil => rfl
  | cons revised rest ih =>
      have before : original (revised :: rest) = revised.rule :: original rest := rfl
      cases result : revised.result? with
      | none =>
          have after : remaining (revised :: rest) = remaining rest := by
            simp [remaining, result]
          have refused : revised.rule.admits keywords commit = false :=
            admits_eq_false_of_result? result
          rw [before, after, ih, RuleSet.classify_cons, refused]
          exact (renumbered_behindOne_of_deleted result rest _).symm
      | some rule =>
          have after : remaining (revised :: rest) = rule :: remaining rest := by
            simp [remaining, result]
          have sameCommits : rule.admits keywords commit = revised.rule.admits keywords commit :=
            admits_of_result? result
          have sameLevel : rule.level = revised.rule.level :=
            level_of_result? result
          rw [before, after, RuleSet.classify_cons, RuleSet.classify_cons, ih, sameCommits,
            sameLevel]
          cases revised.rule.admits keywords commit with
          | true => rfl
          | false => exact (renumbered_behindOne_of_left result rest _).symm

end RevisedRule

/-! ## A module -/

theorem RuleSet.judge_remaining {scope : String} (list : List (RevisedRule scope))
    (keywords : List String) (history : List Commit) :
    judge ⟨RevisedRule.remaining list, keywords⟩ scope history =
      (judge ⟨RevisedRule.original list, keywords⟩ scope history).map (·.renumbered list) := by
  rw [judge, judge, List.map_map]
  apply List.map_congr_left
  intro commit selected
  cases ScopedCommit.scope_of_mem_select selected
  rw [RevisedRule.classify_remaining]
  rfl

theorem Module.exists_matched_rule {module : Module} {history : List Commit}
    {judged : JudgedCommit} (judgedMem : judged ∈ (module.analyze history).commits) {place : Nat}
    (matched : place ∈ judged.verdict.matched?) :
    ∃ rule, module.rules.rules[place]? = some rule ∧
      rule.admitsScope module.identity.commitScope := by
  rcases List.mem_map.mp judgedMem with ⟨commit, selected, rfl⟩
  have decided : module.rules.classify commit =
      ⟨(module.rules.classify commit).level, some place⟩ := by
    rw [← Option.mem_def.mp matched]
  rcases RuleSet.classify_eq_matched_iff.mp decided with ⟨rule, present, _, admitted, _⟩
  rw [Rule.admits_eq, Bool.and_eq_true] at admitted
  exact ⟨rule, present, ScopedCommit.scope_of_mem_select selected ▸ admitted.1⟩

theorem Rule.admitsScope_iff {rule : Rule} {scope : String} :
    rule.admitsScope scope ↔
      rule.scope? = some (.is scope) ∨ rule.scope? = none ∨
        ∃ other ≠ scope, rule.scope? = some (.isNot other) := by
  rcases rule with ⟨_ | named | excluded, type?, breaking, level⟩
  · simp [admitsScope]
  · simp [admitsScope, ScopePattern.admits, eq_comm (a := scope)]
  · simp [admitsScope, ScopePattern.admits, eq_comm (a := scope)]

/-- In the rules of a module, those whose scope patterns refuse the module's scope may be deleted
and patterns that admit it may be dropped, at any places. On every history the module then finds the
same commits, gives each the same level and decides the same, and a commit is decided by what is
left of the rule that decided it before. That rule was not deleted: a rule that decides a commit of
the module names the module's scope, or has no scope pattern, or excludes another scope. -/
theorem scope_patterns_are_static (module : Module) (history : List Commit) :
    let scope := module.identity.commitScope
    let report := module.analyze history
    (∀ list : List (RevisedRule scope), RevisedRule.original list = module.rules.rules →
      let remaining := RevisedRule.remaining list
      let newPlace := RevisedRule.newPlace list
      let again :=
        { module with rules := { module.rules with rules := remaining } }.analyze history
      again.commits.map (·.commit) = report.commits.map (·.commit) ∧
      again.commits.map (·.verdict.level) = report.commits.map (·.verdict.level) ∧
      again.decision = report.decision ∧
      again.commits.map (·.verdict.matched?) =
        report.commits.map (·.verdict.matched?.map newPlace) ∧
      ∀ judged ∈ report.commits, ∀ place ∈ judged.verdict.matched?,
        ∃ revised rule, list[place]? = some revised ∧ revised.result? = some rule ∧
          remaining[newPlace place]? = some rule) ∧
    ∀ judged ∈ report.commits, ∀ place ∈ judged.verdict.matched?,
      ∃ rule, module.rules.rules[place]? = some rule ∧
        (rule.scope? = some (.is scope) ∨ rule.scope? = none ∨
          ∃ other ≠ scope, rule.scope? = some (.isNot other)) := by
  intro scope report
  constructor
  · intro list covers remaining newPlace again
    have commits : again.commits = report.commits.map (·.renumbered list) := by
      have judged := RuleSet.judge_remaining list module.rules.keywords history
      rw [covers] at judged
      exact judged
    refine ⟨?_, ?_, ?_, ?_, ?_⟩
    · rw [commits, List.map_map]
      rfl
    · rw [commits, List.map_map]
      rfl
    · calc
        again.decision = JudgedCommit.decide (report.commits.map (·.renumbered list)) :=
          congrArg JudgedCommit.decide commits
        _ = report.decision :=
          JudgedCommit.decide_map (·.renumbered list) (fun _ => rfl) report.commits
    · rw [commits, List.map_map]
      rfl
    · intro judged judgedMem place matched
      rcases Module.exists_matched_rule judgedMem matched with ⟨before, present, admitted⟩
      rw [← covers, RevisedRule.original, List.getElem?_map, Option.map_eq_some_iff] at present
      rcases present with ⟨revised, presentRevised, rfl⟩
      rcases revised.exists_result?_of_admitsScope admitted with ⟨rule, left⟩
      exact ⟨revised, rule, presentRevised, left,
        RevisedRule.getElem?_newPlace presentRevised left⟩
  · intro judged judgedMem place matched
    rcases Module.exists_matched_rule judgedMem matched with ⟨rule, present, admitted⟩
    exact ⟨rule, present, Rule.admitsScope_iff.mp admitted⟩

/-- Two of the four rules are for other scopes only and are deleted, and one is freed of the scope
that it names. The commits are decided by the two rules that stay, now the first and the second. -/
theorem scope_patterns_are_static_renumbered :
    let feature : Rule := ⟨some (.is "core"), some "feat", false, .minor⟩
    let list : List (RevisedRule "core") := [
      ⟨⟨some (.isNot "core"), none, false, .major⟩, .delete, by decide⟩,
      ⟨feature, .loosen, by decide⟩,
      ⟨⟨some (.is "api"), none, false, .none⟩, .delete, by decide⟩,
      ⟨⟨some (.isNot "api"), none, false, .patch⟩, .keep, by decide⟩]
    let module : Module := ⟨⟨"m"⟩, ⟨"m", "M", "core", "Mv"⟩, .descriptor,
      .ofRules (RevisedRule.original list)⟩
    let history : List Commit := [⟨"fix(core, api): a", ""⟩, ⟨"feat(core): b", ""⟩]
    let remaining := RevisedRule.remaining list
    let again := { module with rules := .ofRules remaining }.analyze history
    let report := module.analyze history
    RevisedRule.original list = module.rules.rules ∧
      report.commits.map (·.verdict.matched?) = [some 3, some 1] ∧
      remaining = [{ feature with scope? := none }, ⟨some (.isNot "api"), none, false, .patch⟩] ∧
      again.commits.map (·.verdict.matched?) = [some 1, some 0] ∧ again.decision = .minor ∧
      ∃ judged ∈ report.commits, 3 ∈ judged.verdict.matched? ∧
        (∃ revised rule, list[3]? = some revised ∧ revised.result? = some rule ∧
          remaining[RevisedRule.newPlace list 3]? = some rule) ∧
        ∃ rule, module.rules.rules[3]? = some rule ∧
          (rule.scope? = some (.is "core") ∨ rule.scope? = none ∨
            ∃ other ≠ "core", rule.scope? = some (.isNot other)) := by
  intro feature list module history remaining again report
  have static := scope_patterns_are_static module history
  rcases static.1 list rfl with ⟨_, _, decision, places, left⟩
  let judged : JudgedCommit :=
    ⟨⟨"fix", "core", "a", "fix(core): a", "fix(core, api): a", ""⟩, .patch, some 3⟩
  have judgedMem : judged ∈ report.commits := by
    decide
  have matched : 3 ∈ judged.verdict.matched? := rfl
  refine ⟨rfl, by decide, rfl, ?_, ?_, judged, judgedMem, matched, ?_, ?_⟩
  · calc
      again.commits.map (·.verdict.matched?) =
          report.commits.map (·.verdict.matched?.map (RevisedRule.newPlace list)) :=
        places
      _ = [some 1, some 0] := by
        decide
  · calc
      again.decision = report.decision := decision
      _ = .minor := by
        decide
  · exact left judged judgedMem 3 matched
  · exact static.2 judged judgedMem 3 matched

end ReleaseAdvisor
