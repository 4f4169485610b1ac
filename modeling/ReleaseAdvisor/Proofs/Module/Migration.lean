import ReleaseAdvisor.Analysis.Warning
import ReleaseAdvisor.Proofs.Module.Declared
import ReleaseAdvisor.Proofs.Rule.Checking

/-!
# Moving a module to a descriptor

A module with a legacy document may be given a descriptor that declares the identity inferred so
far, with the records and keywords of the document. The two ways to a configuration then meet. The
identity is taken as it is declared, because trimming leaves it alone. The records are checked
alike. Keywords that are not declared are the default ones on one way because a checked list of
records starts with them, and on the other because the settings name them. So the module keeps its
identity and its rules, and every report stays the same but for where the configuration comes from.
-/

namespace ReleaseAdvisor

theorem LegacySource.parse_eq_ok {text : String} {path : Path} {source : LegacySource}
    (parsed : parse text path = .ok source) {tagFormat? : Option String}
    {options : AnalyzerOptions} (declares : Declares text tagFormat? options) :
    ∃ rules, RuleSet.ofRecords? options.records = .ok rules ∧
      source.rules = rules.withKeywords options.keywords := by
  rcases exists_declares_of_parse parsed with ⟨_, rules, declared, accepted, rulesEq⟩
  cases Option.some.inj (declared.symm.trans declares)
  exact ⟨rules, accepted, rulesEq.symm⟩

namespace Descriptor

/-- The descriptor that declares an identity and the options of a legacy document. -/
def declaring (identity : Identity) (options : AnalyzerOptions) : Descriptor where
  name? := some identity.name
  title? := some identity.title
  commitScope? := some identity.commitScope
  tagPrefix? := some identity.tagPrefix
  keywords := options.keywords
  records? := some options.records

theorem declared?_of_isTrimmed {value : String} (trimmed : Text.IsTrimmed value.toList)
    (notBlank : Text.isBlankString value = false) : declared? (some value) = some value := by
  have kept : Text.trimmed value = value := by
    rw [Text.trimmed, trimmed.trim_eq, String.ofList_toList]
  have nonempty : value ≠ "" := by
    rintro rfl
    contradiction
  simp [declared?, kept, nonempty]

/-- Keywords that are not declared are the default ones either way. -/
theorem withKeywords_effectiveKeywords {records : List RuleRecord} {rules : RuleSet}
    (accepted : RuleSet.ofRecords? records = .ok rules) (descriptor : Descriptor) :
    rules.withKeywords (descriptor.effectiveKeywords .standard) =
      rules.withKeywords descriptor.keywords := by
  rw [RuleSet.withKeywords_of_ofRecords? accepted, RuleSet.withKeywords_of_ofRecords? accepted,
    effectiveKeywords]
  cases descriptor.keywords with
  | nil => rfl
  | cons keyword more => rfl

theorem resolve_declaring {identity : Identity} {options : AnalyzerOptions} {rules : RuleSet}
    (clean : ∀ value ∈ identity.values,
      Text.IsTrimmed value.toList ∧ Text.isBlankString value = false)
    (accepted : RuleSet.ofRecords? options.records = .ok rules) (path : Path) :
    (declaring identity options).resolve .standard path =
      .ok (identity, rules.withKeywords options.keywords) := by
  have declared : ∀ value ∈ identity.values, declared? (some value) = some value := by
    intro value valueMem
    rcases clean value valueMem with ⟨trimmed, notBlank⟩
    exact declared?_of_isTrimmed trimmed notBlank
  have rulesRead : (declaring identity options).rules identity.commitScope = .ok rules :=
    accepted
  have keywords := withKeywords_effectiveKeywords accepted (declaring identity options)
  simp only [Identity.values, List.mem_cons, List.not_mem_nil, or_false, forall_eq_or_imp,
    forall_eq] at declared
  rcases declared with ⟨name, title, commitScope, tagPrefix⟩
  simp only [resolve]
  simp only [declaring] at rulesRead keywords ⊢
  simp only [name, title, commitScope, tagPrefix, rulesRead, keywords]

end Descriptor

theorem FileSystem.isFile_of_read {files : FileSystem} {path : Path} {text : String}
    (readable : files.read path = .ok text) : files.isFile path := by
  unfold read at readable
  split at readable
  · rename_i stands
    exact isFile_of_entry stands
  · contradiction
  · contradiction

namespace Module

variable {files : FileSystem} {settings : Settings} {cache : LegacyCache} {directory : Path}
  {module : Module}

/-- A module with a legacy source comes from the reading of its document. -/
theorem exists_reading_of_legacy (resolved : (resolve files settings cache directory).1 = .ok module)
    (legacy : module.source = .legacy) :
    ∃ source identity,
      LegacySource.read files (settings.legacyPath directory) = .ok source ∧
        module = ⟨directory, identity, .legacy, source.rules⟩ := by
  rcases read_of_resolve_eq_ok resolved with
    ⟨identity, rules, _, rfl⟩ | ⟨source, identity, read, _, isModule⟩
  · contradiction
  · exact ⟨source, identity, read, isModule.symm⟩

theorem resolve_of_descriptor_text {text : String} {descriptor : Descriptor} {identity : Identity}
    {rules : RuleSet} (readable : files.read (settings.descriptorPath directory) = .ok text)
    (declares : Descriptor.Declares text descriptor)
    (complete : descriptor.resolve settings (settings.descriptorPath directory) =
      .ok (identity, rules)) :
    (resolve files settings cache directory).1 = .ok ⟨directory, identity, .descriptor, rules⟩ := by
  rw [resolve_of_descriptor (FileSystem.isFile_of_read readable)]
  refine ofDescriptor_eq_ok_iff.mpr ⟨identity, rules, ?_, rfl⟩
  simp only [Descriptor.read, readable]
  rw [declares]
  exact complete

end Module

theorem Warning.ofReport_migrated {before : Report} (legacy : before.source = .legacy) :
    ofReport before =
      .legacyConfig before.identity.name :: ofReport { before with source := .descriptor } := by
  simp [ofReport, ofSource, ofCommits, legacy]

theorem Warning.legacyConfig_not_mem {report : Report} (described : report.source = .descriptor)
    (name : String) : .legacyConfig name ∉ ofReport report := by
  rw [ofReport, ofSource, described, List.nil_append, ofCommits]
  split
  · simp
  · rw [List.mem_append]
    rintro (unmatched | noRelease)
    · split at unmatched <;> simp at unmatched
    · split at noRelease <;> simp at noRelease

/-- A module that resolves from its legacy document resolves to the same identity and the same
rules, keywords included, once a descriptor declares the inferred identity and the document's
records and keywords, whatever has become of the document. So every history gives a report with the
same commits, the same verdicts and the same decision, and the only warning that goes away is the
one about the inferred identity. -/
theorem migration_preserves_decisions {files migrated : FileSystem} {directory : Path}
    {cache : LegacyCache} {document text : String} {tagFormat? : Option String}
    {options : AnalyzerOptions} {module : Module}
    (documented : files.read (Settings.standard.legacyPath directory) = .ok document)
    (inferable : LegacySource.Declares document tagFormat? options)
    (resolved : (Module.resolve files .standard cache directory).1 = .ok module)
    (legacy : module.source = .legacy)
    (clean : ∀ value ∈ module.identity.values,
      Text.IsTrimmed value.toList ∧ Text.isBlankString value = false)
    (described : migrated.read (Settings.standard.descriptorPath directory) = .ok text)
    (declares : Descriptor.Declares text (.declaring module.identity options))
    (later : LegacyCache) :
    let successor : Module := { module with source := .descriptor }
    (Module.resolve migrated .standard later directory).1 = .ok successor ∧
      ∀ history,
        (successor.analyze history).commits = (module.analyze history).commits ∧
        (successor.analyze history).decision = (module.analyze history).decision ∧
        Warning.ofReport (module.analyze history) =
          .legacyConfig module.identity.name :: Warning.ofReport (successor.analyze history) ∧
        ∀ name, .legacyConfig name ∉ Warning.ofReport (successor.analyze history) := by
  intro successor
  constructor
  · rcases Module.exists_reading_of_legacy resolved legacy with ⟨source, identity, read, rfl⟩
    simp only [LegacySource.read, documented] at read
    rcases LegacySource.parse_eq_ok read inferable with ⟨rules, accepted, rulesEq⟩
    have complete := Descriptor.resolve_declaring clean accepted
      (Settings.standard.descriptorPath directory)
    rw [← rulesEq] at complete
    exact Module.resolve_of_descriptor_text described declares complete
  · intro history
    exact ⟨rfl, rfl, Warning.ofReport_migrated legacy, Warning.legacyConfig_not_mem rfl⟩

/-- The document declares no keywords, pads a scope and has `null` for what is absent. It is gone
once the descriptor stands. -/
theorem migration_preserves_decisions_document_removed :
    let document := "[\"Sv\",[[\"@semantic-release/commit-analyzer\"," ++
      "[[[\" c\",null,null,\"minor\"]]]]]]"
    let text := "name=\"m\"\ntitle=\"M\"\ncommit_scope=\"c\"\ntag_prefix=\"Sv\"\n" ++
      "[[release_rules]]\nscope=\" c\"\nrelease=\"minor\"\n"
    let files := (FileTree.empty.write ⟨"m/.releaserc.json"⟩ (.text document)).toFileSystem
    let migrated := (FileTree.empty.write ⟨"m/module.toml"⟩ (.text text)).toFileSystem
    let options : AnalyzerOptions := ⟨[⟨some " c", none, none, some (.level "minor")⟩], []⟩
    let module : Module := ⟨⟨"m"⟩, ⟨"m", "M", "c", "Sv"⟩, .legacy,
      .ofRules [⟨some (.is "c"), none, false, .minor⟩]⟩
    files.read ⟨"m/.releaserc.json"⟩ = .ok document ∧
      LegacySource.Declares document (some "Sv") options ∧
      (Module.resolve files .standard .empty ⟨"m"⟩).1 = .ok module ∧
      (∀ value ∈ module.identity.values,
        Text.IsTrimmed value.toList ∧ Text.isBlankString value = false) ∧
      migrated.read ⟨"m/module.toml"⟩ = .ok text ∧
      Descriptor.Declares text (.declaring module.identity options) ∧
      (Module.resolve migrated .standard .empty ⟨"m"⟩).1 =
        .ok { module with source := .descriptor } := by
  intro document text files migrated options module
  have documented : files.read ⟨"m/.releaserc.json"⟩ = .ok document := rfl
  have inferable : LegacySource.Declares document (some "Sv") options := by
    unfold LegacySource.Declares
    decide +kernel
  have resolved : (Module.resolve files .standard .empty ⟨"m"⟩).1 = .ok module := by
    decide +kernel
  have clean : ∀ value ∈ module.identity.values,
      Text.IsTrimmed value.toList ∧ Text.isBlankString value = false := by
    have unchanged : ∀ value ∈ module.identity.values,
        Text.trim value.toList = value.toList ∧ Text.isBlankString value = false := by
      decide
    intro value valueMem
    rcases unchanged value valueMem with ⟨kept, notBlank⟩
    exact ⟨kept ▸ Text.isTrimmed_trim value.toList, notBlank⟩
  have described : migrated.read ⟨"m/module.toml"⟩ = .ok text := rfl
  have declares : Descriptor.Declares text (.declaring module.identity options) := by
    unfold Descriptor.Declares
    decide +kernel
  have preserved := migration_preserves_decisions documented inferable resolved rfl clean described
    declares .empty
  exact ⟨documented, inferable, resolved, clean, described, declares, preserved.1⟩

end ReleaseAdvisor
