import ReleaseAdvisor.Rule.Set

/-!
# Rules as they are written

A rule record is a rule before it has been checked. Its release is a level name or a flag; only
the names of real releases and the flag `false` make sense. Its scope is padded text that may
negate a scope, but not an empty one.

`RuleSet.ofRecords?` checks a list of records. The first bad record is reported, and within a
record a missing release comes before a wrong one, and that before a bad scope.
-/

namespace ReleaseAdvisor

inductive ReleaseValue where
  | level (name : String)
  | flag (value : Bool)
  deriving DecidableEq, Repr

structure RuleRecord where
  scope? : Option String
  type? : Option String
  breaking? : Option Bool
  release? : Option ReleaseValue
  deriving DecidableEq, Repr

inductive RecordFault where
  | missingRelease
  | invalidRelease (shown : String)
  | emptyScope
  deriving DecidableEq, Repr

structure RecordError where
  index : Nat
  fault : RecordFault
  deriving DecidableEq, Repr

def RecordError.message (error : RecordError) : String :=
  let rule := "rule #" ++ toString error.index
  match error.fault with
  | .missingRelease => rule ++ " has no `release` field"
  | .invalidRelease shown =>
      rule ++ " has invalid release value " ++ shown ++
        " (expected \"major\", \"minor\", \"patch\" or false)"
  | .emptyScope => rule ++ " negates an empty scope"

namespace RuleRecord

def levelOf : Option ReleaseValue → Except RecordFault Level
  | none => .error .missingRelease
  | some (.flag false) => .ok .none
  | some (.flag true) => .error (.invalidRelease "true")
  | some (.level name) =>
      match Level.ofName? name with
      | some .none | none => .error (.invalidRelease ("\"" ++ name ++ "\""))
      | some level => .ok level

/-- The scope pattern that a written scope stands for; blank text stands for none. -/
def patternOf : Option String → Except RecordFault (Option ScopePattern)
  | none => .ok none
  | some text =>
      let scope := Text.trimmed text
      if scope.isEmpty then .ok none
      else if (scope.toList.dropWhile (· == '!')).all Text.isBlank then .error .emptyScope
      else .ok (some (ScopePattern.parse scope))

def toRule (record : RuleRecord) : Except RecordFault Rule := do
  let level ← levelOf record.release?
  let scope? ← patternOf record.scope?
  pure ⟨scope?, record.type?, record.breaking?.getD false, level⟩

/-- The rules of a list of records, of which the first has the given index. -/
def toRules (index : Nat) : List RuleRecord → Except RecordError (List Rule)
  | [] => .ok []
  | record :: rest =>
      match record.toRule with
      | .error fault => .error ⟨index, fault⟩
      | .ok rule => (toRules (index + 1) rest).map (rule :: ·)

end RuleRecord

/-- The rule set of a list of records, under the default keywords. -/
def RuleSet.ofRecords? (records : List RuleRecord) : Except RecordError RuleSet :=
  (RuleRecord.toRules 0 records).map RuleSet.ofRules

end ReleaseAdvisor
