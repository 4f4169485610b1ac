import ReleaseAdvisor.Proofs.Result
import ReleaseAdvisor.Rule.Record

/-!
# Checking records

When a record passes its checks and which rule it becomes. A list of records that passes becomes the
list of their rules, place by place, and starts with the default keywords.
-/

namespace ReleaseAdvisor

/-- The level that a written release stands for. -/
def ReleaseValue.meaning? : ReleaseValue → Option Level
  | .flag false => some .none
  | .level "patch" => some .patch
  | .level "minor" => some .minor
  | .level "major" => some .major
  | _ => none

theorem Level.ofName?_eq_some_iff {name : String} {level : Level} :
    ofName? name = some level ↔ level.name = name := by
  constructor
  · intro found
    simpa using List.find?_some found
  · rintro rfl
    cases level <;> decide

theorem ReleaseValue.meaning?_level {name : String} {level : Level} :
    meaning? (.level name) = some level ↔ level ≠ .none ∧ level.name = name := by
  constructor
  · intro read
    unfold meaning? at read
    split at read <;> cases read <;> simp_all [Level.name]
  · rintro ⟨notNone, rfl⟩
    cases level with
    | none => contradiction
    | patch => rfl
    | minor => rfl
    | major => rfl

namespace RuleRecord

theorem levelOf_eq_ok_iff {release? : Option ReleaseValue} {level : Level} :
    levelOf release? = .ok level ↔ release?.bind (·.meaning?) = some level := by
  cases release? with
  | none => simp [levelOf]
  | some release =>
      cases release with
      | flag value => cases value <;> simp [levelOf, ReleaseValue.meaning?]
      | level name =>
          rw [Option.bind_some, ReleaseValue.meaning?_level, ← Level.ofName?_eq_some_iff]
          simp only [levelOf]
          split
          · rename_i isNone
            rw [isNone]
            simp only [reduceCtorEq, Option.some.injEq, false_iff, not_and]
            exact fun notNone isLevel => notNone isLevel.symm
          · rename_i unknown
            simp [unknown]
          · rename_i found notNone known
            rw [known]
            simp only [Except.ok.injEq, Option.some.injEq]
            constructor
            · rintro rfl
              exact ⟨notNone, rfl⟩
            · exact fun ⟨_, isLevel⟩ => isLevel

theorem patternOf_some (text : String) :
    patternOf (some text) =
      if Text.trimmed text = "" then .ok none
      else if ((Text.trimmed text).toList.dropWhile (· == '!')).all Text.isBlank then
        .error .emptyScope
      else .ok (some (ScopePattern.parse (Text.trimmed text))) := by
  simp only [patternOf, String.isEmpty_iff]

theorem toRule_eq_ok_iff {record : RuleRecord} {rule : Rule} :
    record.toRule = .ok rule ↔
      levelOf record.release? = .ok rule.level ∧ patternOf record.scope? = .ok rule.scope? ∧
        record.type? = rule.type? ∧ record.breaking?.getD false = rule.breaking := by
  unfold toRule
  cases levelOf record.release? with
  | error fault => simp [bind, Except.bind]
  | ok level =>
      cases patternOf record.scope? with
      | error fault => simp [bind, Except.bind]
      | ok pattern? =>
          rcases rule with ⟨scope?, type?, breaking, ruleLevel⟩
          simp only [bind, Except.bind, pure, Except.pure, Except.ok.injEq, Rule.mk.injEq]
          constructor
          · rintro ⟨scopeEq, typeEq, breakingEq, levelEq⟩
            exact ⟨levelEq, scopeEq, typeEq, breakingEq⟩
          · rintro ⟨levelEq, scopeEq, typeEq, breakingEq⟩
            exact ⟨scopeEq, typeEq, breakingEq, levelEq⟩

/-- Checking keeps the places: each rule comes from the record at its own place. -/
theorem toRules_eq_ok_iff {start : Nat} {records : List RuleRecord} {rules : List Rule} :
    toRules start records = .ok rules ↔ records.map toRule = rules.map .ok := by
  induction records generalizing start rules with
  | nil =>
      cases rules with
      | nil => simp [toRules]
      | cons rule rest => simp [toRules]
  | cons record rest ih =>
      rw [toRules]
      cases checked : record.toRule with
      | error fault =>
          cases rules <;> simp [checked]
      | ok rule =>
          cases rules with
          | nil => simp [Except.map_eq_ok_iff]
          | cons first others =>
              simp only [Except.map_eq_ok_iff, ih, List.map_cons, checked, List.cons.injEq,
                Except.ok.injEq]
              constructor
              · rintro ⟨_, restChecked, rfl, rfl⟩
                exact ⟨rfl, restChecked⟩
              · rintro ⟨rfl, restChecked⟩
                exact ⟨others, restChecked, rfl, rfl⟩

section Checked

variable {records : List RuleRecord} {rules : List Rule}
  (checked : records.map toRule = rules.map .ok)

include checked

theorem exists_record_of_getElem? {index : Nat} {rule : Rule} (present : rules[index]? = some rule) :
    ∃ record, records[index]? = some record ∧ record.toRule = .ok rule := by
  have paired : (records.map toRule)[index]? = some (.ok rule) := by
    rw [checked, List.getElem?_map, present, Option.map_some]
  exact Option.map_eq_some_iff.mp (List.getElem?_map.symm.trans paired)

theorem exists_rule_of_getElem? {index : Nat} {record : RuleRecord}
    (present : records[index]? = some record) :
    ∃ rule, rules[index]? = some rule ∧ record.toRule = .ok rule := by
  have paired : (rules.map .ok)[index]? = some record.toRule := by
    rw [← checked, List.getElem?_map, present, Option.map_some]
  rcases Option.map_eq_some_iff.mp (List.getElem?_map.symm.trans paired)
    with ⟨rule, stands, isRule⟩
  exact ⟨rule, stands, isRule.symm⟩

end Checked

end RuleRecord

namespace RuleSet

theorem ofRecords?_eq_ok_iff {records : List RuleRecord} {ruleSet : RuleSet} :
    ofRecords? records = .ok ruleSet ↔
      records.map RuleRecord.toRule = ruleSet.rules.map .ok ∧
        ruleSet.keywords = BreakingNote.defaultKeywords := by
  simp only [ofRecords?, Except.map_eq_ok_iff, RuleRecord.toRules_eq_ok_iff]
  constructor
  · rintro ⟨rules, checked, rfl⟩
    exact ⟨checked, rfl⟩
  · rintro ⟨checked, keywordsEq⟩
    refine ⟨ruleSet.rules, checked, ?_⟩
    rw [ofRules, ← keywordsEq]

/-- The keywords in force under a list of keywords: that list, or the default ones if it is
empty. -/
def keywordsInForce (keywords : List String) : List String :=
  if keywords = [] then BreakingNote.defaultKeywords else keywords

theorem withKeywords_eq {ruleSet : RuleSet}
    (untouched : ruleSet.keywords = BreakingNote.defaultKeywords) (keywords : List String) :
    ruleSet.withKeywords keywords = ⟨ruleSet.rules, keywordsInForce keywords⟩ := by
  cases keywords with
  | nil => rw [withKeywords, keywordsInForce, ← untouched]; rfl
  | cons first more => rfl

theorem withKeywords_of_ofRecords? {records : List RuleRecord} {ruleSet : RuleSet}
    (accepted : ofRecords? records = .ok ruleSet) (keywords : List String) :
    ruleSet.withKeywords keywords = ⟨ruleSet.rules, keywordsInForce keywords⟩ :=
  withKeywords_eq (ofRecords?_eq_ok_iff.mp accepted).2 keywords

end RuleSet

end ReleaseAdvisor
