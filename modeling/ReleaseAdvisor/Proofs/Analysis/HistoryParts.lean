import Mathlib.Data.List.Forall2
import ReleaseAdvisor.Analysis.Report
import ReleaseAdvisor.Proofs.Commit.Narrowing
import ReleaseAdvisor.Proofs.Level.Severity

/-!
# Histories in parts

A module's report of a history is put together from its reports of the parts. Narrowing and judging
treat each commit on its own, so the judged commits of two histories in a row stand in a row, and
they follow every permutation of a history. Commits that do not declare the module's scope leave no
trace at all. The decision is a maximum: it is the more severe one of the parts, it does not look at
the order, and more commits never lower it.
-/

namespace ReleaseAdvisor

/-- Whether a commit's header can be read and declares the scope. -/
def Commit.declares (commit : Commit) (scope : String) : Bool :=
  (Header.parse? commit.header).any fun header => decide (scope ∈ header.scopes)

theorem Commit.narrow?_eq_none_iff {commit : Commit} {scope : String} :
    commit.narrow? scope = none ↔ commit.declares scope = false := by
  unfold narrow? declares
  cases Header.parse? commit.header with
  | none => simp
  | some header => simp

section Select

variable (scope : String)

theorem ScopedCommit.select_append (earlier later : List Commit) :
    select scope (earlier ++ later) = select scope earlier ++ select scope later :=
  List.filterMap_append

theorem ScopedCommit.select_filter_declares (history : List Commit) :
    select scope (history.filter (·.declares scope)) = select scope history := by
  rw [select, select, List.filterMap_filter]
  apply List.filterMap_congr
  intro commit _
  cases declared : commit.declares scope with
  | false => simp [Commit.narrow?_eq_none_iff.mpr declared]
  | true => simp

/-- The selected commits are those that declare the scope, one after the other. -/
theorem ScopedCommit.forall₂_select (history : List Commit) :
    List.Forall₂ (fun commit own => commit.narrow? scope = some own)
      (history.filter (·.declares scope)) (select scope history) := by
  induction history with
  | nil => exact List.Forall₂.nil
  | cons commit rest ih =>
      cases declared : commit.declares scope with
      | false =>
          have foreign := Commit.narrow?_eq_none_iff.mpr declared
          simpa [select, declared, foreign] using ih
      | true =>
          have concerns : commit.narrow? scope ≠ none := by
            simp [Commit.narrow?_eq_none_iff, declared]
          rcases Option.ne_none_iff_exists'.mp concerns with ⟨own, narrowed⟩
          simpa [select, declared, narrowed] using ih

end Select

namespace RuleSet

variable (rules : RuleSet) (scope : String)

theorem judge_append (earlier later : List Commit) :
    rules.judge scope (earlier ++ later) =
      rules.judge scope earlier ++ rules.judge scope later := by
  rw [judge, ScopedCommit.select_append, List.map_append]
  rfl

theorem judge_perm {history other : List Commit} (reordered : history.Perm other) :
    (rules.judge scope history).Perm (rules.judge scope other) := by
  apply List.Perm.map
  exact reordered.filterMap _

theorem judge_filter_declares (history : List Commit) :
    rules.judge scope (history.filter (·.declares scope)) = rules.judge scope history := by
  rw [judge, ScopedCommit.select_filter_declares]
  rfl

theorem judge_subset {fewer more : List Commit} (included : fewer ⊆ more) :
    rules.judge scope fewer ⊆ rules.judge scope more := by
  apply List.map_subset
  exact List.filterMap_subset _ included

end RuleSet

namespace JudgedCommit

theorem decide_append (front back : List JudgedCommit) :
    decide (front ++ back) = max (decide front) (decide back) := by
  rw [decide, List.map_append, Level.highest_append]
  rfl

theorem decide_mono {fewer more : List JudgedCommit} (included : fewer ⊆ more) :
    decide fewer ≤ decide more :=
  Level.highest_mono (List.map_subset _ included)

theorem decide_perm {commits others : List JudgedCommit} (reordered : commits.Perm others) :
    decide commits = decide others := by
  apply Level.le_antisymm
  · exact decide_mono reordered.subset
  · exact decide_mono reordered.symm.subset

theorem decide_eq_iff {level : Level} (isRelease : level ≠ .none) {commits : List JudgedCommit} :
    decide commits = level ↔
      (∃ judged ∈ commits, judged.verdict.level = level) ∧
        ∀ judged ∈ commits, judged.verdict.level ≤ level := by
  rw [decide, Level.highest_eq_iff isRelease]
  simp

end JudgedCommit

namespace Module

variable (module : Module)

theorem length_commits_analyze (history : List Commit) :
    (module.analyze history).commits.length =
      (history.filter (·.declares module.identity.commitScope)).length := by
  have selected := ScopedCommit.forall₂_select module.identity.commitScope history
  simp [analyze, RuleSet.judge, selected.length_eq]

theorem analyze_congr {history other : List Commit}
    (same : module.rules.judge module.identity.commitScope history =
      module.rules.judge module.identity.commitScope other) :
    module.analyze history = module.analyze other := by
  simp only [analyze, same]

theorem analyze_eq_of_filter_declares {history other : List Commit}
    (same : history.filter (·.declares module.identity.commitScope) =
      other.filter (·.declares module.identity.commitScope)) :
    module.analyze history = module.analyze other := by
  apply analyze_congr
  rw [← RuleSet.judge_filter_declares, same, RuleSet.judge_filter_declares]

end Module

/-- What a module reports of two histories in a row is what it reports of each: their commits in a
row, and the more severe decision. A permutation of a history permutes the commits and keeps the
decision. Commits that do not declare the module's scope, or whose headers cannot be read, may stand
anywhere or nowhere. More commits never lower the decision. A decision to release is the level of
some commit, and no commit has a more severe one. -/
theorem report_composes_over_histories (module : Module) :
    (∀ earlier later,
      (module.analyze (earlier ++ later)).commits =
        (module.analyze earlier).commits ++ (module.analyze later).commits ∧
      (module.analyze (earlier ++ later)).decision =
        max (module.analyze earlier).decision (module.analyze later).decision) ∧
    (∀ history other : List Commit, history.Perm other →
      (module.analyze history).commits.Perm (module.analyze other).commits ∧
      (module.analyze history).decision = (module.analyze other).decision) ∧
    (∀ history other : List Commit,
      history.filter (·.declares module.identity.commitScope) =
        other.filter (·.declares module.identity.commitScope) →
      module.analyze history = module.analyze other) ∧
    (∀ before foreign after : List Commit,
      (∀ commit ∈ foreign, commit.declares module.identity.commitScope = false) →
      module.analyze (before ++ foreign ++ after) = module.analyze (before ++ after)) ∧
    (∀ fewer more : List Commit, fewer ⊆ more →
      (module.analyze fewer).decision ≤ (module.analyze more).decision) ∧
    (∀ history, ∀ level ≠ Level.none,
      ((module.analyze history).decision = level ↔
        (∃ judged ∈ (module.analyze history).commits, judged.verdict.level = level) ∧
          ∀ judged ∈ (module.analyze history).commits, judged.verdict.level ≤ level)) := by
  refine ⟨?_, ?_, ?_, ?_, ?_, ?_⟩
  · intro earlier later
    have inARow := module.rules.judge_append module.identity.commitScope earlier later
    refine ⟨inARow, ?_⟩
    simp only [Module.analyze, inARow]
    exact JudgedCommit.decide_append _ _
  · intro history other reordered
    have commits := module.rules.judge_perm module.identity.commitScope reordered
    exact ⟨commits, JudgedCommit.decide_perm commits⟩
  · intro history other same
    exact module.analyze_eq_of_filter_declares same
  · intro before foreign after undeclared
    apply module.analyze_eq_of_filter_declares
    have noneLeft : foreign.filter (·.declares module.identity.commitScope) = [] := by
      apply List.filter_eq_nil_iff.mpr
      intro commit commitMem
      simp [undeclared commit commitMem]
    simp only [List.filter_append, noneLeft, List.append_nil]
  · intro fewer more included
    exact JudgedCommit.decide_mono
      (module.rules.judge_subset module.identity.commitScope included)
  · intro history level isRelease
    exact JudgedCommit.decide_eq_iff isRelease

/-- The merge commit and the commit of another module leave no trace, the order of the two others
does not matter, and the feature among them makes the decision. -/
theorem report_composes_over_histories_merged :
    let module : Module := ⟨⟨"m"⟩, ⟨"m", "M", "core", "Mv"⟩, .descriptor,
      .ofRules [⟨none, some "fix", false, .patch⟩, ⟨none, some "feat", false, .minor⟩]⟩
    let fix : Commit := ⟨"fix(core): a", ""⟩
    let feature : Commit := ⟨"feat(api, core): b", ""⟩
    let foreign : List Commit := [⟨"Merge branch 'core'", ""⟩, ⟨"feat(api): c", ""⟩]
    let scope := module.identity.commitScope
    let report := module.analyze ([fix] ++ foreign ++ [feature])
    ([fix, feature].Perm [feature, fix] ∧
      (module.analyze [fix, feature]).decision = (module.analyze [feature, fix]).decision) ∧
    (([fix] ++ foreign).filter (·.declares scope) = [fix].filter (·.declares scope) ∧
      module.analyze ([fix] ++ foreign) = module.analyze [fix]) ∧
    ((∀ commit ∈ foreign, commit.declares scope = false) ∧
      report = module.analyze ([fix] ++ [feature])) ∧
    ([fix] ⊆ [fix, feature] ∧
      (module.analyze [fix]).decision ≤ (module.analyze [fix, feature]).decision) ∧
    (Level.minor ≠ .none ∧ report.decision = .minor) := by
  intro module fix feature foreign scope report
  have composes := report_composes_over_histories module
  have reordered : [fix, feature].Perm [feature, fix] := by
    decide
  have same : ([fix] ++ foreign).filter (·.declares scope) = [fix].filter (·.declares scope) := by
    decide
  have undeclared : ∀ commit ∈ foreign, commit.declares scope = false := by
    decide
  have included : [fix] ⊆ [fix, feature] := by
    simp
  have isRelease : Level.minor ≠ .none := by
    decide
  refine ⟨⟨reordered, (composes.2.1 _ _ reordered).2⟩, ⟨same, composes.2.2.1 _ _ same⟩,
    ⟨undeclared, composes.2.2.2.1 _ _ _ undeclared⟩,
    ⟨included, composes.2.2.2.2.1 _ _ included⟩, isRelease, ?_⟩
  exact (composes.2.2.2.2.2 _ _ isRelease).mpr ⟨by decide, by decide⟩

end ReleaseAdvisor
