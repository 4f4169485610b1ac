import ReleaseAdvisor.Proofs.Module.Resolution

/-!
# What the file of a module declares

A module that resolves comes from the text of one file, and all that it has was declared there. A
descriptor declares the identity value by value. A legacy document declares a tag template and the
options of the analyzer, from which the identity is inferred. Either way the records are checked
and put under keywords before they are the module's rules.
-/

namespace ReleaseAdvisor

/-- The four values that identify a module. -/
def Identity.values (identity : Identity) : List String :=
  [identity.name, identity.title, identity.commitScope, identity.tagPrefix]

namespace LegacySource

/-- What the text of a legacy document declares: its tag template and the analyzer's options. -/
def Declares (text : String) (tagFormat? : Option String) (options : AnalyzerOptions) :
    Prop :=
  ((ofDocument? text).bind fun (tagFormat?, plugins) =>
    (optionsOf? plugins).map (tagFormat?, ·)) = some (tagFormat?, options)

theorem exists_declares_of_parse {text : String} {path : Path} {source : LegacySource}
    (parsed : parse text path = .ok source) :
    ∃ options rules, Declares text source.tagFormat? options ∧
      RuleSet.ofRecords? options.records = .ok rules ∧
      rules.withKeywords options.keywords = source.rules := by
  unfold parse at parsed
  split at parsed
  · contradiction
  · rename_i tagFormat? plugins documentRead
    split at parsed
    · contradiction
    · rename_i options optionsRead
      split at parsed
      · contradiction
      · rename_i rules accepted
        cases parsed
        refine ⟨options, rules, ?_, accepted, rfl⟩
        simp [Declares, documentRead, optionsRead]

theorem exists_text_of_read {files : FileSystem} {path : Path} {source : LegacySource}
    (accepted : read files path = .ok source) :
    ∃ text, files.read path = .ok text ∧ parse text path = .ok source := by
  unfold read at accepted
  split at accepted
  · contradiction
  · rename_i text readable
    exact ⟨text, readable, accepted⟩

end LegacySource

namespace Descriptor

/-- What the text of a descriptor declares. -/
def Declares (text : String) (descriptor : Descriptor) : Prop :=
  (Toml.parse? text).bind ofEntries? = some descriptor

theorem exists_declares_of_read {files : FileSystem} {settings : Settings} {path : Path}
    {result : Identity × RuleSet} (accepted : read files settings path = .ok result) :
    ∃ text descriptor, files.read path = .ok text ∧ Declares text descriptor ∧
      descriptor.resolve settings path = .ok result := by
  unfold read at accepted
  split at accepted
  · contradiction
  · rename_i text readable
    split at accepted
    · contradiction
    · rename_i descriptor declares
      exact ⟨text, descriptor, readable, declares, accepted⟩

/-- What an accepted descriptor is accepted as: its values, trimmed, and its rules under the
keywords that are in force. -/
theorem resolve_eq_ok {descriptor : Descriptor} {settings : Settings} {path : Path}
    {identity : Identity} {rules : RuleSet}
    (accepted : descriptor.resolve settings path = .ok (identity, rules)) :
    (declared? descriptor.name? = some identity.name ∧
      declared? descriptor.title? = some identity.title ∧
      declared? descriptor.commitScope? = some identity.commitScope ∧
      declared? descriptor.tagPrefix? = some identity.tagPrefix) ∧
    ∃ checked, descriptor.rules identity.commitScope = .ok checked ∧
      checked.withKeywords (descriptor.effectiveKeywords settings) = rules := by
  unfold resolve at accepted
  split at accepted
  · rename_i name title commitScope tagPrefix nameEq titleEq scopeEq prefixEq
    split at accepted
    · contradiction
    · rename_i checked rulesChecked
      cases accepted
      exact ⟨⟨nameEq, titleEq, scopeEq, prefixEq⟩, checked, rulesChecked, rfl⟩
  · contradiction

end Descriptor

/-- A module that a descriptor describes. -/
structure Module.DescribedBy (files : FileSystem) (settings : Settings) (module : Module)
    (descriptor : Descriptor) : Prop where
  source : module.source = .descriptor
  declared : ∃ text, files.read (settings.descriptorPath module.directory) = .ok text ∧
    Descriptor.Declares text descriptor
  resolved : descriptor.resolve settings (settings.descriptorPath module.directory) =
    .ok (module.identity, module.rules)

/-- A module that is inferred from a legacy document. -/
structure Module.InferredFrom (files : FileSystem) (settings : Settings) (module : Module)
    (tagFormat? : Option String) (options : AnalyzerOptions) : Prop where
  source : module.source = .legacy
  declared : ∃ text, files.read (settings.legacyPath module.directory) = .ok text ∧
    LegacySource.Declares text tagFormat? options
  checked : ∃ rules, RuleSet.ofRecords? options.records = .ok rules ∧
    rules.withKeywords options.keywords = module.rules
  identified : LegacySource.identity ⟨tagFormat?, module.rules⟩ (module.directory.name?.getD "")
    settings.versionPlaceholder = .ok module.identity

namespace Module

variable {files : FileSystem} {settings : Settings} {cache : LegacyCache} {directory : Path}
  {module : Module}

/-- Every module that resolves is described by a descriptor or inferred from a legacy document. -/
theorem described_or_inferred (resolved : (resolve files settings cache directory).1 = .ok module) :
    module.directory = directory ∧
      ((∃ descriptor, module.DescribedBy files settings descriptor) ∨
        ∃ tagFormat? options, module.InferredFrom files settings tagFormat? options) := by
  rcases read_of_resolve_eq_ok resolved with
    ⟨identity, rules, accepted, rfl⟩ | ⟨source, identity, accepted, identified, rfl⟩
  · rcases Descriptor.exists_declares_of_read accepted with
      ⟨text, descriptor, readable, declares, complete⟩
    exact ⟨rfl, Or.inl ⟨descriptor, rfl, ⟨text, readable, declares⟩, complete⟩⟩
  · rcases LegacySource.exists_text_of_read accepted with ⟨text, readable, parsed⟩
    rcases LegacySource.exists_declares_of_parse parsed with
      ⟨options, rules, declares, checked, underKeywords⟩
    exact ⟨rfl, Or.inr ⟨source.tagFormat?, options, rfl, ⟨text, readable, declares⟩,
      ⟨rules, checked, underKeywords⟩, identified⟩⟩

end Module

end ReleaseAdvisor
