import ReleaseAdvisor.Proofs.Module.CompleteIdentity
import ReleaseAdvisor.Proofs.Module.Keywords
import ReleaseAdvisor.Proofs.Toml.Field

/-!
# Loading a descriptor

What comes of a descriptor, told by what is written in it. A file that cannot be read and a document
that is no descriptor are reported before anything is checked. Then the four identity values are
required, and blank ones are as good as absent. Only with all of them are the rules looked at, and
only declared ones can be refused. Every descriptor that is not refused is loaded, with the values as
they are written but for the blanks around them.
-/

namespace ReleaseAdvisor

/-! ## What is written -/

namespace Descriptor

/-- What stands in place of the records. -/
inductive RecordsWritten : Option Toml → Option (List RuleRecord) → Prop where
  | undeclared : RecordsWritten none none
  | list {items : List Toml} {records : List RuleRecord} :
      items.map RuleRecord.ofToml? = records.map some →
      RecordsWritten (some (.array items)) (some records)
  | tables {items : List Toml} {records : List RuleRecord} :
      items.map RuleRecord.ofToml? = records.map some →
      RecordsWritten (some (.tables items)) (some records)

/-- A descriptor as it stands in the entries of a document, which have the right types. -/
structure WrittenIn (descriptor : Descriptor) (entries : Toml.Entries) : Prop where
  name : entries.lookup "name" = descriptor.name?.map .string
  title : entries.lookup "title" = descriptor.title?.map .string
  commitScope : entries.lookup "commit_scope" = descriptor.commitScope?.map .string
  tagPrefix : entries.lookup "tag_prefix" = descriptor.tagPrefix?.map .string
  keywords : (entries.lookup "note_keywords" = none ∧ descriptor.keywords = []) ∨
    entries.lookup "note_keywords" = some (.array (descriptor.keywords.map .string))
  records : RecordsWritten (entries.lookup "release_rules") descriptor.records?

def WrittenAs (descriptor : Descriptor) (text : String) : Prop :=
  ∃ entries, Toml.parse? text = some entries ∧ descriptor.WrittenIn entries

theorem recordsField?_eq_some_iff {entries : Toml.Entries} {records? : Option (List RuleRecord)} :
    recordsField? entries = some records? ↔
      RecordsWritten (entries.lookup "release_rules") records? := by
  unfold recordsField?
  split
  · rename_i absent
    rw [absent]
    constructor
    · rintro ⟨⟩
      exact RecordsWritten.undeclared
    · rintro ⟨⟩
      rfl
  · rename_i items isArray
    simp only [isArray, Option.map_eq_some_iff, List.mapM_eq_some_iff]
    constructor
    · rintro ⟨records, read, rfl⟩
      exact RecordsWritten.list read
    · rintro ⟨⟩
      exact ⟨_, ‹_›, rfl⟩
  · rename_i items areTables
    simp only [areTables, Option.map_eq_some_iff, List.mapM_eq_some_iff]
    constructor
    · rintro ⟨records, read, rfl⟩
      exact RecordsWritten.tables read
    · rintro ⟨⟩
      exact ⟨_, ‹_›, rfl⟩
  · rename_i value notArray notTables present
    rw [present]
    constructor
    · rintro ⟨⟩
    · intro written
      cases written with
      | list => exact absurd rfl (notArray _)
      | tables => exact absurd rfl (notTables _)

theorem ofEntries?_eq_some_iff {entries : Toml.Entries} {descriptor : Descriptor} :
    ofEntries? entries = some descriptor ↔ descriptor.WrittenIn entries := by
  rcases descriptor with ⟨name?, title?, commitScope?, tagPrefix?, keywords, records?⟩
  simp only [ofEntries?, Option.bind_eq_bind, Option.bind_eq_some_iff, Option.pure_def,
    Option.some.injEq, Descriptor.mk.injEq, Toml.stringField?_eq_some_iff,
    Toml.stringsField?_eq_some_iff, recordsField?_eq_some_iff]
  constructor
  · rintro ⟨_, name, _, title, _, commitScope, _, tagPrefix, keywords?, keywords, _, records,
      rfl, rfl, rfl, rfl, rfl, rfl⟩
    refine ⟨name, title, commitScope, tagPrefix, ?_, records⟩
    cases keywords? with
    | none => exact Or.inl ⟨keywords, rfl⟩
    | some declared => exact Or.inr keywords
  · rintro ⟨name, title, commitScope, tagPrefix, keywordsWritten, records⟩
    rcases keywordsWritten with ⟨absent, rfl⟩ | declared
    · exact ⟨_, name, _, title, _, commitScope, _, tagPrefix, none, absent, _, records,
        rfl, rfl, rfl, rfl, rfl, rfl⟩
    · exact ⟨_, name, _, title, _, commitScope, _, tagPrefix, some keywords, declared, _, records,
        rfl, rfl, rfl, rfl, rfl, rfl⟩

theorem declares_iff {text : String} {descriptor : Descriptor} :
    Declares text descriptor ↔ descriptor.WrittenAs text := by
  rw [Declares, Option.bind_eq_some_iff]
  simp only [ofEntries?_eq_some_iff, WrittenAs]

/-! ## What is checked -/

variable (descriptor : Descriptor) (settings : Settings)

/-- The fields that are required, in the order in which they are reported. -/
def requiredFields : List (String × Option String) :=
  [("name", descriptor.name?), ("title", descriptor.title?),
    ("commit_scope", descriptor.commitScope?), ("tag_prefix", descriptor.tagPrefix?)]

/-- The required fields that are absent or blank. -/
def unfilledFields : List String :=
  descriptor.requiredFields.filterMap fun (field, value?) =>
    if value?.all Text.isBlankString then some field else none

/-- The values of an identity are the written ones without the blanks around them. -/
structure Declaring (identity : Identity) : Prop where
  name : descriptor.name?.map Text.trimmed = some identity.name
  title : descriptor.title?.map Text.trimmed = some identity.title
  commitScope : descriptor.commitScope?.map Text.trimmed = some identity.commitScope
  tagPrefix : descriptor.tagPrefix?.map Text.trimmed = some identity.tagPrefix

/-- The rules are those of the records, or the standard ones of the scope where there are no
records. An empty list of records is a list of records. -/
inductive GivesRules (commitScope : String) : List Rule → Prop where
  | declared {records : List RuleRecord} {rules : List Rule} :
      descriptor.records? = some records → records.map RuleRecord.toRule = rules.map .ok →
      GivesRules commitScope rules
  | standard : descriptor.records? = none →
      GivesRules commitScope (RuleSet.standard commitScope).rules

/-- The first list of keywords that is not empty, of the descriptor's, those of the settings and the
default ones. -/
def firstKeywords? : Option (List String) :=
  [descriptor.keywords, settings.keywords, BreakingNote.defaultKeywords].find? (· ≠ [])

variable {descriptor settings}

theorem declared?_eq_some_iff {value? : Option String} {value : String} :
    declared? value? = some value ↔
      value?.map Text.trimmed = some value ∧ value?.all Text.isBlankString = false := by
  cases value? with
  | none => simp [declared?]
  | some text =>
      simp only [declared?, Option.map_some, Option.filter_eq_some_iff, Option.some.injEq,
        Option.all_some, Bool.not_eq_true', String.isEmpty_eq_false_iff]
      apply and_congr_right
      rintro rfl
      rw [ne_eq, Text.trimmed_eq_empty_iff, Bool.not_eq_true]

theorem isNone_declared? (value? : Option String) :
    (declared? value?).isNone = value?.all Text.isBlankString := by
  rw [Bool.eq_iff_iff, Option.isNone_iff_eq_none]
  cases value? with
  | none => simp [declared?]
  | some text => simp [declared?, Text.trimmed_eq_empty_iff]

theorem missingFields_eq_unfilledFields : descriptor.missingFields = descriptor.unfilledFields := by
  simp only [missingFields, isNone_declared?]
  rfl

theorem unfilledFields_eq_nil_iff :
    descriptor.unfilledFields = [] ↔
      descriptor.name?.all Text.isBlankString = false ∧
        descriptor.title?.all Text.isBlankString = false ∧
        descriptor.commitScope?.all Text.isBlankString = false ∧
        descriptor.tagPrefix?.all Text.isBlankString = false := by
  simp [unfilledFields, requiredFields]

theorem resolve_of_unfilled (unfilled : descriptor.unfilledFields ≠ []) (path : Path) :
    descriptor.resolve settings path = .error (.missingFields path descriptor.unfilledFields) := by
  unfold resolve
  split
  · rename_i name title commitScope tagPrefix
    rw [declared?_eq_some_iff] at name title commitScope tagPrefix
    exact absurd (unfilledFields_eq_nil_iff.mpr ⟨name.2, title.2, commitScope.2, tagPrefix.2⟩)
      unfilled
  · rw [missingFields_eq_unfilledFields]

theorem exists_declaring (filled : descriptor.unfilledFields = []) :
    ∃ identity, descriptor.Declaring identity := by
  have written : ∀ {value? : Option String}, value?.all Text.isBlankString = false →
      ∃ value, value?.map Text.trimmed = some value := by
    intro value? notBlank
    cases value? with
    | none => contradiction
    | some text => exact ⟨Text.trimmed text, rfl⟩
  rcases unfilledFields_eq_nil_iff.mp filled with ⟨name, title, commitScope, tagPrefix⟩
  rcases written name with ⟨name, isName⟩
  rcases written title with ⟨title, isTitle⟩
  rcases written commitScope with ⟨commitScope, isScope⟩
  rcases written tagPrefix with ⟨tagPrefix, isPrefix⟩
  exact ⟨⟨name, title, commitScope, tagPrefix⟩, isName, isTitle, isScope, isPrefix⟩

section Filled

variable {identity : Identity} (declaring : descriptor.Declaring identity)
  (filled : descriptor.unfilledFields = [])

include declaring filled

theorem Declaring.declared?_eq :
    declared? descriptor.name? = some identity.name ∧
      declared? descriptor.title? = some identity.title ∧
      declared? descriptor.commitScope? = some identity.commitScope ∧
      declared? descriptor.tagPrefix? = some identity.tagPrefix := by
  rcases unfilledFields_eq_nil_iff.mp filled with ⟨name, title, commitScope, tagPrefix⟩
  simp only [declared?_eq_some_iff]
  exact ⟨⟨declaring.name, name⟩, ⟨declaring.title, title⟩,
    ⟨declaring.commitScope, commitScope⟩, ⟨declaring.tagPrefix, tagPrefix⟩⟩

theorem Declaring.isComplete : identity.IsComplete := by
  rcases declaring.declared?_eq filled with ⟨name, title, commitScope, tagPrefix⟩
  rw [Identity.isComplete_iff]
  exact ⟨not_blank_of_declared? name, not_blank_of_declared? title,
    not_blank_of_declared? commitScope, not_blank_of_declared? tagPrefix⟩

theorem resolve_of_refused {error : RecordError}
    (refused : descriptor.rules identity.commitScope = .error error) (path : Path) :
    descriptor.resolve settings path = .error (.badRules path error) := by
  rcases declaring.declared?_eq filled with ⟨name, title, commitScope, tagPrefix⟩
  simp only [resolve, name, title, commitScope, tagPrefix, refused]

theorem resolve_of_checked {checked : RuleSet}
    (isChecked : descriptor.rules identity.commitScope = .ok checked) (path : Path) :
    descriptor.resolve settings path =
      .ok (identity, checked.withKeywords (descriptor.effectiveKeywords settings)) := by
  rcases declaring.declared?_eq filled with ⟨name, title, commitScope, tagPrefix⟩
  simp only [resolve, name, title, commitScope, tagPrefix, isChecked]

end Filled

variable {commitScope : String}

theorem rules_eq_error_iff {error : RecordError} :
    descriptor.rules commitScope = .error error ↔
      ∃ records, descriptor.records? = some records ∧
        RuleSet.ofRecords? records = .error error := by
  unfold rules
  cases descriptor.records? <;> simp

theorem rules_eq_ok_iff {checked : RuleSet} :
    descriptor.rules commitScope = .ok checked ↔
      descriptor.GivesRules commitScope checked.rules ∧
        checked.keywords = BreakingNote.defaultKeywords := by
  constructor
  · intro isChecked
    refine ⟨?_, keywords_rules isChecked⟩
    unfold rules at isChecked
    split at isChecked
    · rename_i records declared
      exact GivesRules.declared declared (RuleSet.ofRecords?_eq_ok_iff.mp isChecked).1
    · rename_i undeclared
      cases isChecked
      exact GivesRules.standard undeclared
  · rcases checked with ⟨checkedRules, keywords⟩
    rintro ⟨gives, rfl⟩
    cases gives with
    | declared declared checked =>
        simp only [rules, declared]
        exact RuleSet.ofRecords?_eq_ok_iff.mpr ⟨checked, rfl⟩
    | standard undeclared =>
        simp only [rules, undeclared]
        rfl

theorem firstKeywords?_eq :
    descriptor.firstKeywords? settings =
      some (RuleSet.keywordsInForce (descriptor.effectiveKeywords settings)) := by
  rw [firstKeywords?, effectiveKeywords, RuleSet.keywordsInForce]
  cases descriptor.keywords with
  | nil =>
      cases settings.keywords with
      | nil => rfl
      | cons keyword more => rfl
  | cons keyword more => rfl

theorem exists_rules_iff {ruleSet : RuleSet} :
    (∃ checked, descriptor.rules commitScope = .ok checked ∧
        checked.withKeywords (descriptor.effectiveKeywords settings) = ruleSet) ↔
      descriptor.GivesRules commitScope ruleSet.rules ∧
        descriptor.firstKeywords? settings = some ruleSet.keywords := by
  simp only [rules_eq_ok_iff, firstKeywords?_eq, Option.some.injEq]
  constructor
  · rintro ⟨checked, ⟨gives, untouched⟩, rfl⟩
    rw [RuleSet.withKeywords_eq untouched]
    exact ⟨gives, rfl⟩
  · rcases ruleSet with ⟨checked, keywords⟩
    rintro ⟨gives, rfl⟩
    exact ⟨.ofRules checked, ⟨gives, rfl⟩, RuleSet.withKeywords_eq rfl _⟩

/-! ## What comes of it -/

/-- A descriptor that stands at a path. -/
def StandsAt (descriptor : Descriptor) (files : FileSystem) (path : Path) : Prop :=
  ∃ text, files.read path = .ok text ∧ descriptor.WrittenAs text

/-- What loading a descriptor comes to. What is required of an outcome excludes those before it. -/
inductive Loads (files : FileSystem) (settings : Settings) (path : Path) :
    Except ConfigError (Identity × RuleSet) → Prop where
  | unreadable {error : FileError} : files.read path = .error error →
      Loads files settings path (.error (.unreadable path error))
  | invalid {text : String} : files.read path = .ok text →
      (∀ descriptor : Descriptor, ¬descriptor.WrittenAs text) →
      Loads files settings path (.error (.invalidDescriptor path))
  | unfilled {descriptor : Descriptor} : descriptor.StandsAt files path →
      descriptor.unfilledFields ≠ [] →
      Loads files settings path (.error (.missingFields path descriptor.unfilledFields))
  | badRules {descriptor : Descriptor} {records : List RuleRecord} {error : RecordError} :
      descriptor.StandsAt files path → descriptor.unfilledFields = [] →
      descriptor.records? = some records → RuleSet.ofRecords? records = .error error →
      Loads files settings path (.error (.badRules path error))
  | loaded {descriptor : Descriptor} {identity : Identity} {rules : RuleSet} :
      descriptor.StandsAt files path → descriptor.unfilledFields = [] →
      descriptor.Declaring identity → descriptor.GivesRules identity.commitScope rules.rules →
      descriptor.firstKeywords? settings = some rules.keywords →
      Loads files settings path (.ok (identity, rules))

section Loading

variable (files : FileSystem) (settings : Settings) (path : Path)

theorem exists_loads : ∃ result, Loads files settings path result := by
  cases readable : files.read path with
  | error error => exact ⟨_, Loads.unreadable readable⟩
  | ok text =>
      by_cases written : ∃ descriptor : Descriptor, descriptor.WrittenAs text
      · rcases written with ⟨descriptor, written⟩
        have stands : descriptor.StandsAt files path := ⟨text, readable, written⟩
        by_cases filled : descriptor.unfilledFields = []
        · rcases exists_declaring filled with ⟨identity, declaring⟩
          cases checked : descriptor.rules identity.commitScope with
          | error error =>
              rcases rules_eq_error_iff.mp checked with ⟨records, declared, refused⟩
              exact ⟨_, Loads.badRules stands filled declared refused⟩
          | ok rules =>
              rcases exists_rules_iff.mp ⟨rules, checked, rfl⟩ with ⟨gives, keywords⟩
              exact ⟨_, Loads.loaded stands filled declaring gives keywords⟩
        · exact ⟨_, Loads.unfilled stands filled⟩
      · exact ⟨_, Loads.invalid readable (not_exists.mp written)⟩

variable {files settings path}

theorem read_of_standsAt (stands : descriptor.StandsAt files path) :
    read files settings path = descriptor.resolve settings path := by
  rcases stands with ⟨text, readable, written⟩
  have declares : (Toml.parse? text).bind ofEntries? = some descriptor := declares_iff.mpr written
  simp only [read, readable, declares]

theorem Loads.read_eq {result : Except ConfigError (Identity × RuleSet)}
    (loads : Loads files settings path result) : read files settings path = result := by
  cases loads with
  | unreadable failed => simp only [read, failed]
  | invalid readable unwritten =>
      have undeclared : (Toml.parse? _).bind ofEntries? = none :=
        Option.eq_none_iff_forall_ne_some.mpr fun descriptor declares =>
          unwritten descriptor (declares_iff.mp declares)
      simp only [read, readable, undeclared]
  | unfilled stands unfilled =>
      rw [read_of_standsAt stands, resolve_of_unfilled unfilled]
  | badRules stands filled declared refused =>
      rcases exists_declaring filled with ⟨identity, declaring⟩
      rw [read_of_standsAt stands]
      exact resolve_of_refused declaring filled (rules_eq_error_iff.mpr ⟨_, declared, refused⟩) path
  | loaded stands filled declaring gives keywords =>
      rcases exists_rules_iff.mpr ⟨gives, keywords⟩ with ⟨checked, isChecked, rfl⟩
      rw [read_of_standsAt stands]
      exact resolve_of_checked declaring filled isChecked path

theorem read_eq_iff {result : Except ConfigError (Identity × RuleSet)} :
    read files settings path = result ↔ Loads files settings path result := by
  constructor
  · rintro rfl
    rcases exists_loads files settings path with ⟨result, loads⟩
    rwa [loads.read_eq]
  · exact Loads.read_eq

end Loading

/-- Loading a descriptor has the outcome that its text calls for. A file that cannot be read and a
text that is no descriptor come first. Then the required fields that are absent or blank are named,
in their order, and only if there are none a list of records is refused for its rules. Everything
else is loaded: the values trimmed and so not blank, the rules of the records, or the standard ones
of the scope if there are no records, and the first keywords that are not empty. -/
theorem loading_meets_specification (files : FileSystem) (settings : Settings) (path : Path) :
    (∀ result, read files settings path = result ↔ Loads files settings path result) ∧
      ∀ identity rules, read files settings path = .ok (identity, rules) →
        identity.IsComplete ∧ rules.keywords ≠ [] := by
  refine ⟨fun result => read_eq_iff, ?_⟩
  intro identity rules accepted
  cases read_eq_iff.mp accepted with
  | loaded stands filled declaring gives keywords =>
      refine ⟨declaring.isComplete filled, ?_⟩
      rw [firstKeywords?_eq, Option.some.injEq] at keywords
      rw [← keywords]
      exact RuleSet.keywordsInForce_ne_nil _

/-- An empty list of records gives no rules, and empty keywords everywhere leave the default ones. A
blank title is reported although a record has no release. -/
theorem loading_meets_specification_empty_lists :
    let text := "name=\" m\\t\"\ntitle=\"M \"\ncommit_scope=\"\\u3000c\"\ntag_prefix=\"Sv\"\n" ++
      "note_keywords=[]\nrelease_rules=[]\n"
    let blank := "name=\"m\"\ntitle=\" \"\ncommit_scope=\"c\"\nrelease_rules=[\x7b\x7d]\n"
    let files := ((FileTree.empty.write ⟨"m.toml"⟩ (.text text)).write ⟨"blank.toml"⟩
      (.text blank)).toFileSystem
    let settings : Settings := { Settings.standard with keywords := [] }
    let identity : Identity := ⟨"m", "M", "c", "Sv"⟩
    read files settings ⟨"m.toml"⟩ = .ok (identity, .ofRules []) ∧
      Loads files settings ⟨"m.toml"⟩ (.ok (identity, .ofRules [])) ∧ identity.IsComplete ∧
      Loads files settings ⟨"blank.toml"⟩
        (.error (.missingFields ⟨"blank.toml"⟩ ["title", "tag_prefix"])) := by
  intro text blank files settings identity
  have accepted : read files settings ⟨"m.toml"⟩ = .ok (identity, .ofRules []) := by
    decide +kernel
  have refused : read files settings ⟨"blank.toml"⟩ =
      .error (.missingFields ⟨"blank.toml"⟩ ["title", "tag_prefix"]) := by
    decide +kernel
  rcases loading_meets_specification files settings ⟨"m.toml"⟩ with ⟨outcome, complete⟩
  exact ⟨accepted, (outcome _).mp accepted, (complete _ _ accepted).1,
    ((loading_meets_specification files settings ⟨"blank.toml"⟩).1 _).mp refused⟩

end Descriptor

end ReleaseAdvisor
