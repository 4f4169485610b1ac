import ReleaseAdvisor.Analysis.Warning
import ReleaseAdvisor.Proofs.Commit.Narrowing

/-!
# Scopes that commits can be relevant to

The scopes that headers declare are trimmed pieces of a group, so none of them is empty, is padded,
or has a comma or a closing parenthesis. Nothing else is asked of a scope: every other text is
declared by the header that narrowing to it would write. So a module whose commit scope is not such
a name has no commits in any history. It never releases, and each of its reports says that no commit
concerns it.
-/

namespace ReleaseAdvisor

namespace Header

theorem isScopeName_iff {scope : String} :
    IsScopeName scope ↔
      scope ≠ "" ∧ Text.trimmed scope = scope ∧ ',' ∉ scope.toList ∧ ')' ∉ scope.toList := by
  rw [Text.trimmed_eq_self_iff, ne_eq, ← String.toList_eq_nil_iff]
  constructor
  · rintro ⟨nonempty, trimmed, noComma, noParenthesis⟩
    exact ⟨nonempty, trimmed, noComma, noParenthesis⟩
  · rintro ⟨nonempty, trimmed, noComma, noParenthesis⟩
    exact ⟨nonempty, trimmed, noComma, noParenthesis⟩

instance : DecidablePred IsScopeName :=
  fun _ => decidable_of_iff _ isScopeName_iff.symm

theorem isScopeName_of_parse? {text : String} {header : Header}
    (read : parse? text = some header) : ∀ scope ∈ header.scopes, IsScopeName scope :=
  (wellFormed_of_parse? read).scopeNames

/-- The parts of a header besides its scopes can be chosen freely, so some choice will do. -/
theorem wellFormed_plain : WellFormed ⟨"fix", [], "x"⟩ where
  typeNonempty := by decide
  typeCharacters := List.all_eq_true.mp (by decide)
  scopeNames := by simp
  subject := ⟨by decide, by decide, by simp [Text.isBlank]⟩

end Header

namespace Commit

theorem isScopeName_of_narrow? {commit : Commit} {scope : String} {own : ScopedCommit}
    (narrowed : commit.narrow? scope = some own) : Header.IsScopeName scope := by
  rcases narrow?_eq_some_iff.mp narrowed with ⟨header, parsed, declared, _⟩
  exact Header.isScopeName_of_parse? parsed scope declared

theorem exists_narrow?_of_isScopeName {scope : String} (name : Header.IsScopeName scope) :
    ∃ (commit : Commit) (own : ScopedCommit), commit.narrow? scope = some own := by
  have read := Header.parse?_narrowed Header.wellFormed_plain name
  refine ⟨⟨Header.narrowed "fix" scope "x", ""⟩, _, narrow?_eq_some_iff.mpr ⟨_, read, ?_, rfl⟩⟩
  exact List.mem_singleton_self scope

theorem exists_narrow?_ne_none_iff {scope : String} :
    (∃ commit : Commit, commit.narrow? scope ≠ none) ↔ Header.IsScopeName scope := by
  constructor
  · rintro ⟨commit, concerns⟩
    rcases Option.ne_none_iff_exists'.mp concerns with ⟨own, narrowed⟩
    exact isScopeName_of_narrow? narrowed
  · intro name
    rcases exists_narrow?_of_isScopeName name with ⟨commit, own, narrowed⟩
    exact ⟨commit, by simp [narrowed]⟩

end Commit

theorem ScopedCommit.select_of_not_isScopeName {scope : String}
    (notName : ¬Header.IsScopeName scope) (history : List Commit) : select scope history = [] := by
  apply List.filterMap_eq_nil_iff.mpr
  intro commit _
  by_contra concerns
  exact notName (Commit.exists_narrow?_ne_none_iff.mp ⟨commit, concerns⟩)

theorem Module.analyze_of_not_isScopeName {module : Module}
    (notName : ¬Header.IsScopeName module.identity.commitScope) (history : List Commit) :
    module.analyze history = ⟨module.directory, module.identity, module.source, .none, []⟩ := by
  rw [analyze, RuleSet.judge, ScopedCommit.select_of_not_isScopeName notName]
  rfl

theorem Warning.ofReport_without_commits {report : Report} (commits : report.commits = []) :
    ofReport report = ofSource report ++
      [.noRelevantCommits report.identity.name report.identity.commitScope] := by
  simp [ofReport, ofCommits, commits]

/-- A scope is one that some commit concerns exactly if it is not empty, not padded, and free of
commas and closing parentheses, and the scopes of every header are such. A module whose commit scope
is not has a report without commits, whatever the history and its rules. It decides for no release,
and the report says that no commit concerns the module. -/
theorem only_scope_names_are_relevant :
    (∀ scope : String,
      (∃ commit : Commit, commit.narrow? scope ≠ none) ↔ Header.IsScopeName scope) ∧
    (∀ (text : String) (header : Header), Header.parse? text = some header →
      ∀ scope ∈ header.scopes, Header.IsScopeName scope) ∧
    (∀ (module : Module) (history : List Commit),
      ¬Header.IsScopeName module.identity.commitScope →
        (module.analyze history).commits = [] ∧ (module.analyze history).decision = .none ∧
          Warning.noRelevantCommits module.identity.name module.identity.commitScope ∈
            Warning.ofReport (module.analyze history)) := by
  refine ⟨?_, ?_, ?_⟩
  · intro scope
    exact Commit.exists_narrow?_ne_none_iff
  · intro text header read
    exact Header.isScopeName_of_parse? read
  · intro module history notName
    rw [module.analyze_of_not_isScopeName notName, Warning.ofReport_without_commits rfl]
    exact ⟨rfl, rfl, by simp⟩

/-- The module is named by two scopes at once. The header declares each of them, and not the two
together. -/
theorem only_scope_names_are_relevant_two_scopes :
    let module : Module := ⟨⟨"m"⟩, ⟨"m", "M", "a,b", "Mv"⟩, .descriptor, .standard "a,b"⟩
    let report := module.analyze [⟨"feat(a,b): x", ""⟩]
    (Header.parse? "feat(a,b): x" = some ⟨"feat", ["a", "b"], "x"⟩ ∧ "b" ∈ ["a", "b"] ∧
      Header.IsScopeName "b") ∧
    ¬Header.IsScopeName "a,b" ∧ report.commits = [] ∧ report.decision = .none ∧
      Warning.noRelevantCommits "m" "a,b" ∈ Warning.ofReport report := by
  intro module report
  have read : Header.parse? "feat(a,b): x" = some ⟨"feat", ["a", "b"], "x"⟩ := by
    decide
  have declared : "b" ∈ ["a", "b"] := by
    decide
  have notName : ¬Header.IsScopeName "a,b" := by
    decide
  have relevant := only_scope_names_are_relevant
  exact ⟨⟨read, declared, relevant.2.1 _ _ read "b" declared⟩, notName,
    relevant.2.2 module _ notName⟩

end ReleaseAdvisor
