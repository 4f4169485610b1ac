import ReleaseAdvisor.Module.Error
import ReleaseAdvisor.Module.Identity
import ReleaseAdvisor.Rule.Decode
import ReleaseAdvisor.Settings

/-!
# Descriptors

A descriptor is a TOML document that declares a module's identity and perhaps its rules and its
keywords. `Descriptor.ofEntries?` reads the document as it is written; `Descriptor.resolve` checks
it: blank values count as missing, all four identity values are required, and then the rules are
checked.

A descriptor without rules has the standard ones of its scope; an empty list of rules is a list
without rules. A descriptor without keywords uses those of the settings.
-/

namespace ReleaseAdvisor

structure Descriptor where
  name? : Option String
  title? : Option String
  commitScope? : Option String
  tagPrefix? : Option String
  keywords : List String
  records? : Option (List RuleRecord)
  deriving DecidableEq, Repr

/-- What stands in a TOML value. -/
def FieldValue.ofToml : Toml → FieldValue
  | .string value => .text value
  | .boolean value => .flag value
  | _ => .other

def FieldValue.ofEntry (entries : Toml.Entries) (key : String) : FieldValue :=
  match entries.lookup key with
  | some value => ofToml value
  | none => .missing

/-- Reads a record from a TOML value: a table, or an array of the fields in order, of which only
the first four count. A date is read as a record in which every field is missing. -/
def RuleRecord.ofToml? : Toml → Option RuleRecord
  | .table _ entries =>
      let field := FieldValue.ofEntry entries
      ofFields? (field "scope") (field "type") (field "breaking") (field "release")
  | .array items => ofList? ((items.take fieldNames.length).map FieldValue.ofToml)
  | .date => ofList? []
  | _ => none

namespace Descriptor

def recordsField? (entries : Toml.Entries) : Option (Option (List RuleRecord)) :=
  match entries.lookup "release_rules" with
  | none => some none
  | some (.array items) | some (.tables items) => (items.mapM RuleRecord.ofToml?).map some
  | some _ => none

def ofEntries? (entries : Toml.Entries) : Option Descriptor := do
  let name? ← Toml.stringField? entries "name"
  let title? ← Toml.stringField? entries "title"
  let commitScope? ← Toml.stringField? entries "commit_scope"
  let tagPrefix? ← Toml.stringField? entries "tag_prefix"
  let keywords ← Toml.stringsField? entries "note_keywords"
  let records? ← recordsField? entries
  pure ⟨name?, title?, commitScope?, tagPrefix?, keywords.getD [], records?⟩

/-- A declared value without padding; blank ones are missing. -/
def declared? (value? : Option String) : Option String :=
  (value?.map Text.trimmed).filter (!·.isEmpty)

def missingFields (descriptor : Descriptor) : List String :=
  [("name", descriptor.name?), ("title", descriptor.title?),
    ("commit_scope", descriptor.commitScope?), ("tag_prefix", descriptor.tagPrefix?)].filterMap
    fun (field, value?) => if (declared? value?).isNone then some field else none

/-- The keywords in force: the descriptor's own, or else those of the settings. -/
def effectiveKeywords (descriptor : Descriptor) (settings : Settings) : List String :=
  if descriptor.keywords.isEmpty then settings.keywords else descriptor.keywords

def rules (descriptor : Descriptor) (commitScope : String) : Except RecordError RuleSet :=
  match descriptor.records? with
  | some records => RuleSet.ofRecords? records
  | none => .ok (RuleSet.standard commitScope)

def resolve (descriptor : Descriptor) (settings : Settings) (path : Path) :
    Except ConfigError (Identity × RuleSet) :=
  match declared? descriptor.name?, declared? descriptor.title?,
      declared? descriptor.commitScope?, declared? descriptor.tagPrefix? with
  | some name, some title, some commitScope, some tagPrefix =>
      match descriptor.rules commitScope with
      | .error error => .error (.badRules path error)
      | .ok rules =>
          .ok (⟨name, title, commitScope, tagPrefix⟩,
            rules.withKeywords (descriptor.effectiveKeywords settings))
  | _, _, _, _ => .error (.missingFields path descriptor.missingFields)

def read (files : FileSystem) (settings : Settings) (path : Path) :
    Except ConfigError (Identity × RuleSet) :=
  match files.read path with
  | .error error => .error (.unreadable path error)
  | .ok text =>
      match (Toml.parse? text).bind ofEntries? with
      | none => .error (.invalidDescriptor path)
      | some descriptor => descriptor.resolve settings path

end Descriptor

end ReleaseAdvisor
