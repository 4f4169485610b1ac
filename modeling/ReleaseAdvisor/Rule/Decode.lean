import ReleaseAdvisor.Json.Writer
import ReleaseAdvisor.Rule.Record

/-!
# Reading and writing rule records

A record has four fields. `RuleRecord.ofFields?` builds a record from what stands in them, so
that every document format that can say "missing", "text", "flag" or "something else" reads
records the same way.

In JSON a record is an object, or an array of its fields in order from which trailing ones may be
left out. A `null` counts as missing, unknown members are skipped, and a member must not repeat.
-/

namespace ReleaseAdvisor

/-- What stands in a field of a record. -/
inductive FieldValue where
  | missing
  | text (value : String)
  | flag (value : Bool)
  | other

namespace FieldValue

def text? : FieldValue → Option (Option String)
  | .missing => some none
  | .text value => some (some value)
  | .flag _ | .other => none

def flag? : FieldValue → Option (Option Bool)
  | .missing => some none
  | .flag value => some (some value)
  | .text _ | .other => none

def release? : FieldValue → Option (Option ReleaseValue)
  | .missing => some none
  | .text name => some (some (.level name))
  | .flag value => some (some (.flag value))
  | .other => none

def ofJson : Json → FieldValue
  | .null => .missing
  | .string value => .text value
  | .bool value => .flag value
  | .number _ | .array _ | .object _ => .other

def ofMember? : Json.Member → Option FieldValue
  | .missing => some .missing
  | .present value => some (ofJson value)
  | .repeated => none

end FieldValue

namespace RuleRecord

def fieldNames : List String :=
  ["scope", "type", "breaking", "release"]

def ofFields? (scope type breaking release : FieldValue) : Option RuleRecord := do
  pure ⟨← scope.text?, ← type.text?, ← breaking.flag?, ← release.release?⟩

/-- A record written as a list of its fields; missing trailing fields are missing. -/
def ofList? : List FieldValue → Option RuleRecord
  | [] => ofFields? .missing .missing .missing .missing
  | [scope] => ofFields? scope .missing .missing .missing
  | [scope, type] => ofFields? scope type .missing .missing
  | [scope, type, breaking] => ofFields? scope type breaking .missing
  | [scope, type, breaking, release] => ofFields? scope type breaking release
  | _ => none

def ofJson? : Json → Option RuleRecord
  | .object members => do
      let field (name : String) := FieldValue.ofMember? (Json.member members name)
      ofFields? (← field "scope") (← field "type") (← field "breaking") (← field "release")
  | .array items => ofList? (items.map FieldValue.ofJson)
  | _ => none

def listOfText? (text : String) : Option (List RuleRecord) := do
  match ← Json.Document.read? text with
  | .array items =>
      items.mapM fun item => do
        ofJson? (← Json.ofRecord? fieldNames (Json.maxDepth - 1) item)
  | _ => none

def releaseJson : Option ReleaseValue → Json
  | none => .null
  | some (.level name) => .string name
  | some (.flag value) => .bool value

def optionalMember (name : String) (value : Option Json) : List (String × Json) :=
  (value.map fun value => (name, value)).toList

/-- A record as JSON: the release always, the other fields where they are present. -/
def toJson (record : RuleRecord) : Json :=
  .object <|
    optionalMember "scope" (record.scope?.map .string) ++
      optionalMember "type" (record.type?.map .string) ++
      optionalMember "breaking" (record.breaking?.map .bool) ++
      [("release", releaseJson record.release?)]

end RuleRecord

end ReleaseAdvisor
