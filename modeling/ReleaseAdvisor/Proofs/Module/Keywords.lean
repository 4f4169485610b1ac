import ReleaseAdvisor.Proofs.Module.Declared
import ReleaseAdvisor.Proofs.Rule.Checking

/-!
# The keywords that a module reads notes with

A module may declare keywords, the settings may, and there are default ones. A list of rules starts
with the default ones, and an empty list of keywords leaves them as they are, so the keywords in
force are never empty. Which lists a module's rules are put under is where its two sources differ: a
descriptor that declares none hands on those of the settings, and a legacy document that declares
none hands on nothing. So the settings reach the descriptors only.
-/

namespace ReleaseAdvisor

namespace RuleSet

theorem keywordsInForce_ne_nil (keywords : List String) : keywordsInForce keywords ≠ [] := by
  rw [keywordsInForce]
  split
  · exact List.cons_ne_nil _ _
  · assumption

theorem keywords_withKeywords {ruleSet : RuleSet}
    (untouched : ruleSet.keywords = BreakingNote.defaultKeywords) (keywords : List String) :
    (ruleSet.withKeywords keywords).keywords = keywordsInForce keywords := by
  rw [withKeywords_eq untouched]

end RuleSet

theorem Descriptor.keywords_rules {descriptor : Descriptor} {commitScope : String}
    {rules : RuleSet} (checked : descriptor.rules commitScope = .ok rules) :
    rules.keywords = BreakingNote.defaultKeywords := by
  unfold Descriptor.rules at checked
  split at checked
  · exact (RuleSet.ofRecords?_eq_ok_iff.mp checked).2
  · cases checked
    rfl

namespace Module

variable {files : FileSystem} {settings : Settings} {cache : LegacyCache} {directory : Path}
  {module : Module}

/-- The keywords that the file of a module declares, none if it leaves them out. -/
def DeclaresKeywords (files : FileSystem) (settings : Settings) (module : Module)
    (keywords : List String) : Prop :=
  match module.source with
  | .descriptor =>
      ∃ text descriptor, files.read (settings.descriptorPath module.directory) = .ok text ∧
        Descriptor.Declares text descriptor ∧ descriptor.keywords = keywords
  | .legacy =>
      ∃ text tagFormat? options, files.read (settings.legacyPath module.directory) = .ok text ∧
        LegacySource.Declares text tagFormat? options ∧ options.keywords = keywords

theorem DeclaresKeywords.unique {keywords others : List String}
    (declares : module.DeclaresKeywords files settings keywords)
    (declaresOthers : module.DeclaresKeywords files settings others) : keywords = others := by
  unfold DeclaresKeywords at declares declaresOthers
  cases sourceEq : module.source with
  | descriptor =>
      rw [sourceEq] at declares declaresOthers
      rcases declares with ⟨text, descriptor, readable, declares, rfl⟩
      rcases declaresOthers with ⟨otherText, other, otherReadable, otherDeclares, rfl⟩
      cases readable.symm.trans otherReadable
      cases Option.some.inj (declares.symm.trans otherDeclares)
      rfl
  | legacy =>
      rw [sourceEq] at declares declaresOthers
      rcases declares with ⟨text, tagFormat?, options, readable, declares, rfl⟩
      rcases declaresOthers with ⟨otherText, otherFormat?, other, otherReadable, otherDeclares, rfl⟩
      cases readable.symm.trans otherReadable
      cases Option.some.inj (declares.symm.trans otherDeclares)
      rfl

theorem DescribedBy.declaresKeywords {descriptor : Descriptor}
    (described : module.DescribedBy files settings descriptor) :
    module.DeclaresKeywords files settings descriptor.keywords := by
  rcases described.declared with ⟨text, readable, declares⟩
  rw [DeclaresKeywords, described.source]
  exact ⟨text, descriptor, readable, declares, rfl⟩

theorem InferredFrom.declaresKeywords {tagFormat? : Option String} {options : AnalyzerOptions}
    (inferred : module.InferredFrom files settings tagFormat? options) :
    module.DeclaresKeywords files settings options.keywords := by
  rcases inferred.declared with ⟨text, readable, declares⟩
  rw [DeclaresKeywords, inferred.source]
  exact ⟨text, tagFormat?, options, readable, declares, rfl⟩

theorem DescribedBy.keywords_eq {descriptor : Descriptor}
    (described : module.DescribedBy files settings descriptor) :
    module.rules.keywords =
      RuleSet.keywordsInForce
        (if descriptor.keywords = [] then settings.keywords else descriptor.keywords) := by
  rcases Descriptor.resolve_eq_ok described.resolved with ⟨_, rules, checked, rulesEq⟩
  rw [← rulesEq, RuleSet.keywords_withKeywords (Descriptor.keywords_rules checked),
    Descriptor.effectiveKeywords]
  simp only [List.isEmpty_iff]

theorem InferredFrom.keywords_eq {tagFormat? : Option String} {options : AnalyzerOptions}
    (inferred : module.InferredFrom files settings tagFormat? options) :
    module.rules.keywords = RuleSet.keywordsInForce options.keywords := by
  rcases inferred.checked with ⟨rules, accepted, rulesEq⟩
  rw [← rulesEq, RuleSet.keywords_withKeywords (RuleSet.ofRecords?_eq_ok_iff.mp accepted).2]

/-- A module that resolves declares one list of keywords, and reads notes with that list unless it
is empty. Under an empty list a module with a descriptor reads them with the keywords of the
settings, and with the default ones if those are empty too. A module with a legacy document then
reads them with the default ones, whatever the settings say. Either way there are keywords. -/
theorem keywords_in_force (resolved : (resolve files settings cache directory).1 = .ok module) :
    ∃ declared, (∀ keywords, module.DeclaresKeywords files settings keywords ↔
        keywords = declared) ∧
      (declared ≠ [] → module.rules.keywords = declared) ∧
      (declared = [] → module.source = .descriptor → settings.keywords ≠ [] →
        module.rules.keywords = settings.keywords) ∧
      (declared = [] → module.source = .descriptor → settings.keywords = [] →
        module.rules.keywords = BreakingNote.defaultKeywords) ∧
      (declared = [] → module.source = .legacy →
        module.rules.keywords = BreakingNote.defaultKeywords) ∧
      module.rules.keywords ≠ [] := by
  have onlyOne : ∀ {declared}, module.DeclaresKeywords files settings declared →
      ∀ keywords, module.DeclaresKeywords files settings keywords ↔ keywords = declared := by
    intro declared declares keywords
    exact ⟨fun declaresToo => declaresToo.unique declares, fun same => same ▸ declares⟩
  rcases (described_or_inferred resolved).2 with
    ⟨descriptor, described⟩ | ⟨tagFormat?, options, inferred⟩
  · refine ⟨descriptor.keywords, onlyOne described.declaresKeywords, ?_⟩
    rw [described.keywords_eq, described.source]
    refine ⟨?_, ?_, ?_, by simp, RuleSet.keywordsInForce_ne_nil _⟩
    · intro declared
      rw [if_neg declared, RuleSet.keywordsInForce, if_neg declared]
    · intro undeclared _ configured
      rw [if_pos undeclared, RuleSet.keywordsInForce, if_neg configured]
    · intro undeclared _ unconfigured
      rw [if_pos undeclared, RuleSet.keywordsInForce, if_pos unconfigured]
  · refine ⟨options.keywords, onlyOne inferred.declaresKeywords, ?_⟩
    rw [inferred.keywords_eq, inferred.source]
    refine ⟨?_, by simp, by simp, ?_, RuleSet.keywordsInForce_ne_nil _⟩
    · intro declared
      rw [RuleSet.keywordsInForce, if_neg declared]
    · intro undeclared _
      rw [RuleSet.keywordsInForce, if_pos undeclared]

/-- A descriptor that declares no keywords reads notes with those of the settings. -/
theorem keywords_in_force_configured :
    let text := "name=\"m\"\ntitle=\"M\"\ncommit_scope=\"c\"\ntag_prefix=\"Sv\"\n"
    let files := (FileTree.empty.write ⟨"m/module.toml"⟩ (.text text)).toFileSystem
    let settings : Settings := { Settings.standard with keywords := ["X"] }
    let module : Module := ⟨⟨"m"⟩, ⟨"m", "M", "c", "Sv"⟩, .descriptor,
      (RuleSet.standard "c").withKeywords ["X"]⟩
    (resolve files settings .empty ⟨"m"⟩).1 = .ok module ∧
      module.DeclaresKeywords files settings [] ∧ module.rules.keywords = ["X"] := by
  intro text files settings module
  have resolved : (resolve files settings .empty ⟨"m"⟩).1 = .ok module := by
    decide +kernel
  have readable : files.read (settings.descriptorPath ⟨"m"⟩) = .ok text := by
    decide +kernel
  have declares : Descriptor.Declares text ⟨some "m", some "M", some "c", some "Sv", [], none⟩ := by
    unfold Descriptor.Declares
    decide +kernel
  have undeclared : module.DeclaresKeywords files settings [] :=
    ⟨text, _, readable, declares, rfl⟩
  rcases keywords_in_force resolved with ⟨declared, declaresOnly, _, fromSettings, _⟩
  have nothing : declared = [] := ((declaresOnly []).mp undeclared).symm
  exact ⟨resolved, undeclared, fromSettings nothing rfl (List.cons_ne_nil _ _)⟩

/-- A legacy document that declares no keywords has the default ones, although the settings name
others. -/
theorem configured_keywords_miss_legacy_modules :
    let document := "[\"Sv\",[[\"@semantic-release/commit-analyzer\"," ++
      "[[[\"c\",null,null,\"minor\"]]]]]]"
    let files := (FileTree.empty.write ⟨"m/.releaserc.json"⟩ (.text document)).toFileSystem
    let settings : Settings := { Settings.standard with keywords := ["X"] }
    let module : Module := ⟨⟨"m"⟩, ⟨"m", "M", "c", "Sv"⟩, .legacy,
      .ofRules [⟨some (.is "c"), none, false, .minor⟩]⟩
    (resolve files settings .empty ⟨"m"⟩).1 = .ok module ∧
      module.DeclaresKeywords files settings [] ∧ module.rules.keywords ≠ settings.keywords := by
  intro document files settings module
  have resolved : (resolve files settings .empty ⟨"m"⟩).1 = .ok module := by
    decide +kernel
  have readable : files.read (settings.legacyPath ⟨"m"⟩) = .ok document := by
    decide +kernel
  have declares : LegacySource.Declares document (some "Sv")
      ⟨[⟨some "c", none, none, some (.level "minor")⟩], []⟩ := by
    unfold LegacySource.Declares
    decide +kernel
  exact ⟨resolved, ⟨document, some "Sv", _, readable, declares, rfl⟩, by decide⟩

end Module

end ReleaseAdvisor
