import ReleaseAdvisor.Proofs.Module.Declared
import ReleaseAdvisor.Proofs.Module.Inference
import ReleaseAdvisor.Proofs.Module.Title

/-!
# How complete an identity is

An identity is complete if none of its values is blank. A descriptor has its values trimmed and the
blank ones refused, so what it declares is complete. What is inferred from a legacy document is only
checked for empty values. The commit scope is a trimmed scope of a rule and never blank, but the tag
prefix is what the template leaves and may be blank. The title says what the name has besides its
word separators, so it is blank, and may be empty, where the name has nothing else to say.
-/

namespace ReleaseAdvisor

/-- An identity all of whose values have a character that is not blank. -/
def Identity.IsComplete (identity : Identity) : Prop :=
  ∀ value ∈ identity.values, Text.isBlankString value = false

theorem Identity.isComplete_iff {identity : Identity} :
    identity.IsComplete ↔
      Text.isBlankString identity.name = false ∧ Text.isBlankString identity.title = false ∧
        Text.isBlankString identity.commitScope = false ∧
        Text.isBlankString identity.tagPrefix = false := by
  simp [IsComplete, values]

theorem Descriptor.not_blank_of_declared? {value? : Option String} {value : String}
    (declared : declared? value? = some value) : Text.isBlankString value = false := by
  rcases Option.filter_eq_some_iff.mp declared with ⟨mapped, nonempty⟩
  rcases Option.map_eq_some_iff.mp mapped with ⟨text, _, rfl⟩
  exact Text.not_blank_of_trimmed_ne_empty (by simpa using nonempty)

theorem RuleSet.not_blank_of_firstPositiveScope? {records : List RuleRecord} {ruleSet : RuleSet}
    (accepted : ofRecords? records = .ok ruleSet) {scope : String}
    (first : ruleSet.firstPositiveScope? = some scope) : Text.isBlankString scope = false := by
  rcases (firstPositiveScope?_eq_some_iff accepted).mp first with ⟨_, record, _, _, _, named⟩
  rcases named with ⟨text, _, rfl, nonempty, _⟩
  exact Text.not_blank_of_trimmed_ne_empty nonempty

/-- What an inferred identity is made of. -/
theorem LegacySource.identity_eq_ok {source : LegacySource} {directoryName placeholder : String}
    {identity : Identity} (identified : source.identity directoryName placeholder = .ok identity) :
    identity.tagPrefix = tagPrefixOf source.tagFormat? placeholder ∧ identity.tagPrefix ≠ "" ∧
      source.rules.firstPositiveScope? = some identity.commitScope ∧ identity.commitScope ≠ "" ∧
      identity.name = (if directoryName = "" then identity.commitScope else directoryName) ∧
      identity.title = Identity.titleOf identity.name := by
  simp only [LegacySource.identity] at identified
  split at identified
  · contradiction
  · contradiction
  · contradiction
  · rename_i hasPrefix hasScope
    cases identified
    rw [String.isEmpty_eq_false_iff] at hasPrefix hasScope
    refine ⟨rfl, hasPrefix, ?_, hasScope, by simp, rfl⟩
    cases found : source.rules.firstPositiveScope? with
    | none => simp [commitScopeOf, found] at hasScope
    | some scope => simp [commitScopeOf, found]

namespace Module

variable {files : FileSystem} {settings : Settings} {cache : LegacyCache} {directory : Path}
  {module : Module}

theorem DescribedBy.isComplete {descriptor : Descriptor}
    (described : module.DescribedBy files settings descriptor) : module.identity.IsComplete := by
  rcases (Descriptor.resolve_eq_ok described.resolved).1 with
    ⟨name, title, commitScope, tagPrefix⟩
  rw [Identity.isComplete_iff]
  exact ⟨Descriptor.not_blank_of_declared? name, Descriptor.not_blank_of_declared? title,
    Descriptor.not_blank_of_declared? commitScope, Descriptor.not_blank_of_declared? tagPrefix⟩

theorem InferredFrom.not_blank_commitScope {tagFormat? : Option String} {options : AnalyzerOptions}
    (inferred : module.InferredFrom files settings tagFormat? options) :
    Text.isBlankString module.identity.commitScope = false := by
  rcases inferred.checked with ⟨rules, accepted, rulesEq⟩
  have first := (LegacySource.identity_eq_ok inferred.identified).2.2.1
  rw [← rulesEq, RuleSet.withKeywords_of_ofRecords? accepted] at first
  exact RuleSet.not_blank_of_firstPositiveScope? accepted first

theorem InferredFrom.isComplete_iff {tagFormat? : Option String} {options : AnalyzerOptions}
    (inferred : module.InferredFrom files settings tagFormat? options) :
    module.identity.IsComplete ↔
      Text.isBlankString module.identity.tagPrefix = false ∧
        ∃ character ∈ module.identity.name.toList,
          Text.isBlank character = false ∧ Identity.isWordSeparator character = false := by
  have scope := inferred.not_blank_commitScope
  have title := (LegacySource.identity_eq_ok inferred.identified).2.2.2.2.2
  rw [Identity.isComplete_iff, title, Identity.isBlankString_titleOf, List.all_eq_false]
  constructor
  · rintro ⟨_, ⟨character, characterMem, speaks⟩, _, tagPrefix⟩
    exact ⟨tagPrefix, character, characterMem, by simpa [and_comm] using speaks⟩
  · rintro ⟨tagPrefix, character, characterMem, notBlank, notSeparator⟩
    have name : Text.isBlankString module.identity.name = false :=
      List.all_eq_false.mpr ⟨character, characterMem, by simp [notBlank]⟩
    exact ⟨name, ⟨character, characterMem, by simp [notBlank, notSeparator]⟩, scope, tagPrefix⟩

/-- The identity of a module that has a descriptor is complete. That of a module with a legacy
document has a commit scope that is not blank, and its name and its tag prefix are not empty. It is
complete if the tag prefix is not blank and the name has a character that is neither a blank nor a
word separator, and otherwise it is not. -/
theorem completeness_of_identity
    (resolved : (resolve files settings cache directory).1 = .ok module) :
    (module.source = .descriptor → module.identity.IsComplete) ∧
      (module.source = .legacy →
        Text.isBlankString module.identity.commitScope = false ∧
          module.identity.name ≠ "" ∧ module.identity.tagPrefix ≠ "" ∧
          (module.identity.IsComplete ↔
            Text.isBlankString module.identity.tagPrefix = false ∧
              ∃ character ∈ module.identity.name.toList,
                Text.isBlank character = false ∧
                  Identity.isWordSeparator character = false)) := by
  rcases (described_or_inferred resolved).2 with
    ⟨descriptor, described⟩ | ⟨tagFormat?, options, inferred⟩
  · rw [described.source]
    exact ⟨fun _ => described.isComplete, by simp⟩
  · rw [inferred.source]
    refine ⟨by simp, fun _ => ⟨inferred.not_blank_commitScope, ?_⟩⟩
    rcases LegacySource.identity_eq_ok inferred.identified with
      ⟨_, hasPrefix, _, hasScope, nameEq, _⟩
    refine ⟨?_, hasPrefix, inferred.isComplete_iff⟩
    rw [nameEq]
    split
    · exact hasScope
    · assumption

/-- An identity that is inferred and complete. -/
theorem completeness_of_identity_inferred :
    let document := "[\"Sv\",[[\"@semantic-release/commit-analyzer\"," ++
      "[[[\"c\",null,null,\"minor\"]]]]]]"
    let files := (FileTree.empty.write ⟨"key_vault/.releaserc.json"⟩ (.text document)).toFileSystem
    let module : Module := ⟨⟨"key_vault"⟩, ⟨"key_vault", "Key Vault", "c", "Sv"⟩, .legacy,
      .ofRules [⟨some (.is "c"), none, false, .minor⟩]⟩
    (resolve files .standard .empty ⟨"key_vault"⟩).1 = .ok module ∧
      module.identity.IsComplete := by
  intro document files module
  have resolved : (resolve files .standard .empty ⟨"key_vault"⟩).1 = .ok module := by
    decide +kernel
  rcases (completeness_of_identity resolved).2 rfl with ⟨_, _, _, complete⟩
  exact ⟨resolved, complete.mpr ⟨by decide, 'k', by decide⟩⟩

/-- A directory that is named by a word separator resolves without a title, and a template that is
a blank and the placeholder gives a blank for a tag prefix. -/
theorem incomplete_identity_resolves :
    let document := "[\" $\x7bversion\x7d\",[[\"@semantic-release/commit-analyzer\"," ++
      "[[[\"c\",null,null,\"minor\"]]]]]]"
    let files := (FileTree.empty.write ⟨"_/.releaserc.json"⟩ (.text document)).toFileSystem
    let module : Module := ⟨⟨"_"⟩, ⟨"_", "", "c", " "⟩, .legacy,
      .ofRules [⟨some (.is "c"), none, false, .minor⟩]⟩
    (resolve files .standard .empty ⟨"_"⟩).1 = .ok module ∧
      Text.isBlankString module.identity.title ∧ Text.isBlankString module.identity.tagPrefix := by
  intro document files module
  have resolved : (resolve files .standard .empty ⟨"_"⟩).1 = .ok module := by
    decide +kernel
  exact ⟨resolved, by decide, by decide⟩

end Module

end ReleaseAdvisor
