import ReleaseAdvisor.Module.Error
import ReleaseAdvisor.Module.Identity
import ReleaseAdvisor.Rule.Decode
import ReleaseAdvisor.Text.Occurrence

/-!
# Legacy documents

A legacy document is a JSON object with a tag template and a list of plugins. A plugin entry with
options is an array of a name and the options; the first one whose name contains
`analyzerName` gives the release rules and the keywords. All other entries are ignored, whatever
they hold.

Documents, options and parser options may also be written as arrays of their fields in order.

The document states no identity: the tag prefix is the template without the version placeholder,
the commit scope is the first one that a rule names, and the name is that of the directory.
-/

namespace ReleaseAdvisor

/-- What a legacy document says. -/
structure LegacySource where
  tagFormat? : Option String
  rules : RuleSet
  deriving DecidableEq, Repr

structure AnalyzerOptions where
  records : List RuleRecord
  keywords : List String
  deriving DecidableEq, Repr

namespace AnalyzerOptions

def none : AnalyzerOptions :=
  ⟨[], []⟩

def keywordsOf? : Json → Option (List String)
  | .array items =>
      items.mapM fun
        | .string keyword => some keyword
        | _ => Option.none
  | _ => Option.none

def recordsOf? : Json → Option (List RuleRecord)
  | .array items => items.mapM RuleRecord.ofJson?
  | _ => Option.none

/-- Reads a member that may be missing, but not `null`. -/
def memberOr {α : Type} (read? : Json → Option α) (absent : α) : Json.Member → Option α
  | .missing => some absent
  | .present value => read? value
  | .repeated => Option.none

def parserKeywords? : Json → Option (List String)
  | .object members => memberOr keywordsOf? [] (Json.member members "noteKeywords")
  | .array [] => some []
  | .array [keywords] => keywordsOf? keywords
  | _ => Option.none

def ofJson? : Json → Option AnalyzerOptions
  | .object members => do
      let records ← memberOr recordsOf? [] (Json.member members "releaseRules")
      let keywords ← memberOr parserKeywords? [] (Json.member members "parserOpts")
      pure ⟨records, keywords⟩
  | .array [] => some none
  | .array [rules] => do pure ⟨← recordsOf? rules, []⟩
  | .array [rules, parser] => do pure ⟨← recordsOf? rules, ← parserKeywords? parser⟩
  | _ => Option.none

end AnalyzerOptions

namespace LegacySource

/-- The text by which the analyzer's entry is recognised. -/
def analyzerName : String :=
  "@semantic-release/commit-analyzer"

def analyzerOptions? : Json → Option Json
  | .array [.string name, options] =>
      if Text.occursIn analyzerName.toList name.toList then some options else none
  | _ => none

def tagFormatOf? : Json → Option (Option String)
  | .null => some none
  | .string template => some (some template)
  | _ => none

def pluginsOf? : Json → Option (List Json)
  | .array entries => some entries
  | _ => none

def ofDocument? (text : String) : Option (Option String × List Json) := do
  let document ← Json.Document.read? text
  match ← Json.ofRecord? ["tagFormat", "plugins"] Json.maxDepth document with
  | .object members => do
      let tagFormat? ←
        AnalyzerOptions.memberOr tagFormatOf? none (Json.member members "tagFormat")
      let plugins ← AnalyzerOptions.memberOr pluginsOf? [] (Json.member members "plugins")
      pure (tagFormat?, plugins)
  | .array [tagFormat] => do pure (← tagFormatOf? tagFormat, [])
  | .array [tagFormat, plugins] => do pure (← tagFormatOf? tagFormat, ← pluginsOf? plugins)
  | _ => none

/-- The options that a list of plugins gives the analyzer: those of its first entry. -/
def optionsOf? (plugins : List Json) : Option AnalyzerOptions :=
  match plugins.findSome? analyzerOptions? with
  | none => some AnalyzerOptions.none
  | some options => AnalyzerOptions.ofJson? options.lastWins

def parse (text : String) (path : Path) : Except ConfigError LegacySource :=
  match ofDocument? text with
  | none => .error (.invalidLegacy path .document)
  | some (tagFormat?, plugins) =>
      match optionsOf? plugins with
      | none => .error (.invalidLegacy path .options)
      | some options =>
          match RuleSet.ofRecords? options.records with
          | .error error => .error (.badRules path error)
          | .ok rules => .ok ⟨tagFormat?, rules.withKeywords options.keywords⟩

def read (files : FileSystem) (path : Path) : Except ConfigError LegacySource :=
  match files.read path with
  | .error error => .error (.unreadable path error)
  | .ok text => parse text path

/-- The tag prefix of a template: the template without the first placeholder. -/
def tagPrefixOf (tagFormat? : Option String) (placeholder : String) : String :=
  match tagFormat? with
  | none => ""
  | some template => String.ofList (Text.eraseFirst placeholder.toList template.toList)

def commitScopeOf (rules : RuleSet) : String :=
  rules.firstPositiveScope?.getD ""

/-- Infers the identity of a module from its document. The name is that of the directory, or the
commit scope if the directory has none. -/
def identity (source : LegacySource) (directoryName placeholder : String) :
    Except ConfigError Identity :=
  let tagPrefix := tagPrefixOf source.tagFormat? placeholder
  let commitScope := commitScopeOf source.rules
  match tagPrefix.isEmpty, commitScope.isEmpty with
  | true, false => .error (.unresolved .tagPrefix tagPrefix commitScope)
  | false, true => .error (.unresolved .commitScope tagPrefix commitScope)
  | true, true => .error (.unresolved .both tagPrefix commitScope)
  | false, false =>
      let name := if directoryName.isEmpty then commitScope else directoryName
      .ok ⟨name, Identity.titleOf name, commitScope, tagPrefix⟩

end LegacySource

end ReleaseAdvisor
