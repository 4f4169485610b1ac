import ReleaseAdvisor.Analysis.Report
import ReleaseAdvisor.Proofs.Commit.HeaderGrammar

/-!
# Narrowing is a projection

A module sees a commit under a header that names the module's scope alone. That header is read
back into what the module saw, so narrowing a narrowed commit changes nothing, except that the
header as it was written is now the narrowed one. No rule looks at the written header. Hence a
module that analyses the commits of its own report comes to the same report.
-/

namespace ReleaseAdvisor

def ScopedCommit.toCommit (own : ScopedCommit) : Commit :=
  ⟨own.header, own.body⟩

/-- A narrowed commit whose header was written the way the module sees it. -/
def ScopedCommit.restated (own : ScopedCommit) : ScopedCommit :=
  { own with writtenHeader := own.header }

def JudgedCommit.restated (judged : JudgedCommit) : JudgedCommit :=
  { judged with commit := judged.commit.restated }

theorem Commit.narrow?_eq_some_iff {commit : Commit} {scope : String} {own : ScopedCommit} :
    commit.narrow? scope = some own ↔
      ∃ header, Header.parse? commit.header = some header ∧ scope ∈ header.scopes ∧
        own = ⟨header.type, scope, header.subject,
          Header.narrowed header.type scope header.subject, commit.header, commit.body⟩ := by
  unfold narrow?
  split
  · rename_i header parsed
    split
    · rename_i declared
      simp [parsed, declared, eq_comm]
    · rename_i undeclared
      simp [parsed, undeclared]
  · rename_i unparsed
    simp [unparsed]

theorem Commit.parse?_of_narrow? {commit : Commit} {scope : String} {own : ScopedCommit}
    (narrowed : commit.narrow? scope = some own) :
    Header.parse? own.header = some ⟨own.type, [scope], own.subject⟩ := by
  rcases narrow?_eq_some_iff.mp narrowed with ⟨header, parsed, declared, rfl⟩
  have wellFormed := Header.wellFormed_of_parse? parsed
  exact Header.parse?_narrowed wellFormed (wellFormed.scopeNames scope declared)

/-- A narrowed commit concerns the module again, and is narrowed to itself. -/
theorem Commit.narrow?_toCommit {commit : Commit} {scope : String} {own : ScopedCommit}
    (narrowed : commit.narrow? scope = some own) :
    own.toCommit.narrow? scope = some own.restated := by
  have parsed := parse?_of_narrow? narrowed
  rcases narrow?_eq_some_iff.mp narrowed with ⟨header, _, _, rfl⟩
  exact narrow?_eq_some_iff.mpr ⟨_, parsed, List.mem_singleton_self scope, rfl⟩

theorem ScopedCommit.scope_of_mem_select {scope : String} {history : List Commit}
    {own : ScopedCommit} (selected : own ∈ select scope history) : own.scope = scope := by
  rcases List.mem_filterMap.mp selected with ⟨commit, _, narrowed⟩
  rcases Commit.narrow?_eq_some_iff.mp narrowed with ⟨header, _, _, rfl⟩
  rfl

theorem ScopedCommit.select_toCommit (scope : String) (history : List Commit) :
    select scope ((select scope history).map toCommit) = (select scope history).map restated := by
  calc
    select scope ((select scope history).map toCommit) =
        (select scope history).filterMap fun own => own.toCommit.narrow? scope :=
      List.filterMap_map
    _ = (select scope history).filterMap (some ∘ restated) := by
      apply List.filterMap_congr
      intro own selected
      rcases List.mem_filterMap.mp selected with ⟨commit, _, narrowed⟩
      exact Commit.narrow?_toCommit narrowed
    _ = (select scope history).map restated := by
      rw [List.filterMap_eq_map]

theorem RuleSet.classify_restated (rules : RuleSet) (own : ScopedCommit) :
    rules.classify own.restated = rules.classify own :=
  rfl

theorem RuleSet.judge_toCommit (rules : RuleSet) (scope : String) (history : List Commit) :
    rules.judge scope ((rules.judge scope history).map (·.commit.toCommit)) =
      (rules.judge scope history).map (·.restated) := by
  have commits : (rules.judge scope history).map (·.commit.toCommit) =
      (ScopedCommit.select scope history).map (·.toCommit) := by
    simp [judge]
  rw [commits, judge, ScopedCommit.select_toCommit]
  simp only [judge, List.map_map, Function.comp_def, classify_restated, JudgedCommit.restated]

/-- A change that leaves the levels alone leaves the decision alone. -/
theorem JudgedCommit.decide_map (change : JudgedCommit → JudgedCommit)
    (sameLevels : ∀ judged, (change judged).verdict.level = judged.verdict.level)
    (commits : List JudgedCommit) : decide (commits.map change) = decide commits := by
  simp only [decide, List.map_map, Function.comp_def, sameLevels]

theorem JudgedCommit.decide_restated (commits : List JudgedCommit) :
    decide (commits.map (·.restated)) = decide commits :=
  decide_map restated (fun _ => rfl) commits

/-- The header of a narrowed commit is read back into the type, the one scope and the subject that
the module saw, and the commit under that header is narrowed to itself. So a module that analyses
the commits of its own report, as they stand there, finds the same commits in the same order, with
the same verdict on each, and decides the same. -/
theorem narrowing_idempotent :
    (∀ (commit : Commit) (scope : String) (own : ScopedCommit),
      commit.narrow? scope = some own →
        Header.parse? own.header = some ⟨own.type, [scope], own.subject⟩ ∧
          own.toCommit.narrow? scope = some own.restated) ∧
    (∀ (module : Module) (history : List Commit),
      module.analyze ((module.analyze history).commits.map (·.commit.toCommit)) =
        { module.analyze history with
          commits := (module.analyze history).commits.map (·.restated) }) := by
  constructor
  · intro commit scope own narrowed
    exact ⟨Commit.parse?_of_narrow? narrowed, Commit.narrow?_toCommit narrowed⟩
  · intro module history
    simp only [Module.analyze, RuleSet.judge_toCommit, JudgedCommit.decide_restated]

/-- Nothing but blanks follows the colon, and the commit names two scopes: the module sees a lone
blank as the subject, and sees it again in its own header. -/
theorem narrowing_idempotent_blank_subject :
    let own : ScopedCommit :=
      ⟨"fix", "core", " ", "fix(core):  ", "fix(api,\tcore ):\n \n", "note"⟩
    Commit.narrow? ⟨"fix(api,\tcore ):\n \n", "note"⟩ "core" = some own ∧
      Header.parse? "fix(core):  " = some ⟨"fix", ["core"], " "⟩ ∧
        Commit.narrow? ⟨"fix(core):  ", "note"⟩ "core" =
          some { own with writtenHeader := "fix(core):  " } := by
  intro own
  have narrowed : Commit.narrow? ⟨"fix(api,\tcore ):\n \n", "note"⟩ "core" = some own := by
    decide
  exact ⟨narrowed, narrowing_idempotent.1 _ _ _ narrowed⟩

end ReleaseAdvisor
