import Mathlib.Order.Bounds.Basic
import ReleaseAdvisor.Proofs.Rule.Checking
import ReleaseAdvisor.Proofs.Text.Trimming

/-!
# Which record is to blame

A list of records is refused for the first of its records that is not valid, and of a record's
faults the release comes before the scope. What is valid can be said without the checks: the release
is one of four values, and the scope, blanks aside, is not made of exclamation marks alone. The
check takes off the leading exclamation marks and asks whether only blanks are left. As the text has
been trimmed by then, its last character is not blank, so nothing at all is left.
-/

namespace ReleaseAdvisor

/-- A release as a fault shows it. -/
def ReleaseValue.shown : ReleaseValue → String
  | .flag value => if value then "true" else "false"
  | .level name => "\"" ++ name ++ "\""

namespace RuleRecord

def validReleases : List ReleaseValue :=
  [.level "major", .level "minor", .level "patch", .flag false]

/-- Whether a written scope is a negation without a scope to negate. -/
def NegatesNothing (written? : Option String) : Prop :=
  ∃ text ∈ written?, Text.isBlankString text = false ∧
    ∀ character ∈ (Text.trimmed text).toList, character = '!'

structure IsValid (record : RuleRecord) : Prop where
  release : ∃ release ∈ record.release?, release ∈ validReleases
  scope : ¬NegatesNothing record.scope?

/-- The fault that a record is refused for. -/
inductive HasFault (record : RuleRecord) : RecordFault → Prop where
  | missingRelease : record.release? = none → HasFault record .missingRelease
  | invalidRelease {release : ReleaseValue} : record.release? = some release →
      release ∉ validReleases → HasFault record (.invalidRelease release.shown)
  | emptyScope {release : ReleaseValue} : record.release? = some release →
      release ∈ validReleases → NegatesNothing record.scope? → HasFault record .emptyScope

/-! ## One record -/

theorem exists_levelOf_iff {release? : Option ReleaseValue} :
    (∃ level, levelOf release? = .ok level) ↔ ∃ release ∈ release?, release ∈ validReleases := by
  cases release? with
  | none => simp [levelOf]
  | some release =>
      simp only [levelOf_eq_ok_iff, Option.bind_some, Option.mem_some_iff, exists_eq_left']
      constructor
      · rintro ⟨level, isMeant⟩
        unfold ReleaseValue.meaning? at isMeant
        split at isMeant <;> simp_all [validReleases]
      · intro isValid
        simp only [validReleases, List.mem_cons, List.not_mem_nil, or_false] at isValid
        rcases isValid with rfl | rfl | rfl | rfl <;> exact ⟨_, rfl⟩

theorem levelOf_of_invalid {release : ReleaseValue} (invalid : release ∉ validReleases) :
    levelOf (some release) = .error (.invalidRelease release.shown) := by
  cases release with
  | flag value =>
      cases value with
      | false => simp [validReleases] at invalid
      | true => rfl
  | level name =>
      simp only [levelOf]
      split
      · rfl
      · rfl
      · rename_i level notNone named
        have isLevel : levelOf (some (.level name)) = .ok level :=
          levelOf_eq_ok_iff.mpr
            (ReleaseValue.meaning?_level.mpr ⟨notNone, Level.ofName?_eq_some_iff.mp named⟩)
        rcases exists_levelOf_iff.mp ⟨level, isLevel⟩ with ⟨release, isRelease, valid⟩
        cases isRelease
        contradiction

theorem levelOf_eq_error_iff {release? : Option ReleaseValue} {fault : RecordFault} :
    levelOf release? = .error fault ↔
      release? = none ∧ fault = .missingRelease ∨
        ∃ release ∈ release?, release ∉ validReleases ∧ fault = .invalidRelease release.shown := by
  cases release? with
  | none => simp [levelOf, eq_comm]
  | some release =>
      by_cases valid : release ∈ validReleases
      · rcases exists_levelOf_iff.mpr ⟨release, rfl, valid⟩ with ⟨level, isLevel⟩
        simp [isLevel, valid]
      · simp [levelOf_of_invalid valid, valid, eq_comm]

/-- Behind the exclamation marks of a trimmed text there are only blanks if there is nothing. -/
theorem all_isBlank_dropWhile_iff {text : List Char} (trimmed : Text.IsTrimmed text) :
    (text.dropWhile (· == '!')).all Text.isBlank ↔ ∀ character ∈ text, character = '!' := by
  have nothingLeft : text.dropWhile (· == '!') = [] ↔ ∀ character ∈ text, character = '!' := by
    simp
  rw [← nothingLeft, List.all_eq_true]
  constructor
  · intro blank
    by_contra nonempty
    have suffix : text.dropWhile (· == '!') <:+ text := List.dropWhile_suffix _
    have atEnd : (text.dropWhile (· == '!')).getLast nonempty ∈ text.getLast? := by
      rw [suffix.getLast nonempty]
      exact List.getLast_mem_getLast? _
    have notBlank := trimmed.ending _ atEnd
    rw [blank _ (List.getLast_mem nonempty)] at notBlank
    contradiction
  · intro nothing
    simp [nothing]

theorem patternOf_eq_error_iff {written? : Option String} {fault : RecordFault} :
    patternOf written? = .error fault ↔ NegatesNothing written? ∧ fault = .emptyScope := by
  cases written? with
  | none => simp [patternOf, NegatesNothing]
  | some text =>
      rw [patternOf_some]
      simp only [NegatesNothing, Option.mem_some_iff, exists_eq_left', Text.trimmed_eq_empty_iff,
        all_isBlank_dropWhile_iff (Text.isTrimmed_trimmed text)]
      split
      · rename_i blank
        simp [blank]
      · rename_i notBlank
        split
        · rename_i marks
          simpa [notBlank, eq_comm] using fun _ => marks
        · rename_i marks
          simp [marks]

theorem toRule_eq_error_iff {record : RuleRecord} {fault : RecordFault} :
    record.toRule = .error fault ↔ record.HasFault fault := by
  have inOrder : record.toRule = .error fault ↔ levelOf record.release? = .error fault ∨
      (∃ level, levelOf record.release? = .ok level) ∧ patternOf record.scope? = .error fault := by
    unfold toRule
    cases levelOf record.release? with
    | error first => simp [bind, Except.bind]
    | ok level => cases patternOf record.scope? <;> simp [bind, Except.bind, pure, Except.pure]
  rw [inOrder, levelOf_eq_error_iff, exists_levelOf_iff, patternOf_eq_error_iff]
  constructor
  · rintro ((⟨missing, rfl⟩ | ⟨release, isRelease, invalid, rfl⟩) |
      ⟨⟨release, isRelease, valid⟩, negates, rfl⟩)
    · exact HasFault.missingRelease missing
    · exact HasFault.invalidRelease isRelease invalid
    · exact HasFault.emptyScope isRelease valid negates
  · intro faulty
    cases faulty with
    | missingRelease missing => exact Or.inl (Or.inl ⟨missing, rfl⟩)
    | invalidRelease isRelease invalid => exact Or.inl (Or.inr ⟨_, isRelease, invalid, rfl⟩)
    | emptyScope isRelease valid negates => exact Or.inr ⟨⟨_, isRelease, valid⟩, negates, rfl⟩

theorem isValid_iff {record : RuleRecord} : record.IsValid ↔ ∀ fault, ¬record.HasFault fault := by
  constructor
  · rintro ⟨⟨release, isRelease, valid⟩, scope⟩ fault faulty
    rw [Option.mem_def] at isRelease
    cases faulty with
    | missingRelease missing => simp [missing] at isRelease
    | invalidRelease isOther invalid =>
        rw [isOther, Option.some.injEq] at isRelease
        exact invalid (isRelease ▸ valid)
    | emptyScope _ _ negates => exact scope negates
  · intro faultless
    cases isRelease : record.release? with
    | none => exact absurd (HasFault.missingRelease isRelease) (faultless _)
    | some release =>
        have valid : release ∈ validReleases := by
          by_contra invalid
          exact faultless _ (HasFault.invalidRelease isRelease invalid)
        refine ⟨⟨release, isRelease, valid⟩, ?_⟩
        intro negates
        exact faultless _ (HasFault.emptyScope isRelease valid negates)

theorem exists_toRule_iff {record : RuleRecord} :
    (∃ rule, record.toRule = .ok rule) ↔ record.IsValid := by
  rw [isValid_iff, ← not_iff_not, Except.not_exists_ok_iff]
  simp [toRule_eq_error_iff]

theorem exists_hasFault {record : RuleRecord} (invalid : ¬record.IsValid) :
    ∃ fault, record.HasFault fault := by
  simpa [isValid_iff] using invalid

/-! ## Lists of records -/

/-- Checking stops at a record with a fault, whatever stands behind it. -/
theorem toRules_eq_error {before : List RuleRecord} {record : RuleRecord} {fault : RecordFault}
    (valid : ∀ earlier ∈ before, earlier.IsValid) (faulty : record.HasFault fault) (start : Nat)
    (after : List RuleRecord) :
    toRules start (before ++ record :: after) = .error ⟨start + before.length, fault⟩ := by
  induction before generalizing start with
  | nil =>
      rw [List.nil_append, toRules, toRule_eq_error_iff.mpr faulty]
      rfl
  | cons first rest ih =>
      rcases List.forall_mem_cons.mp valid with ⟨firstValid, restValid⟩
      rcases exists_toRule_iff.mpr firstValid with ⟨rule, checked⟩
      rw [List.cons_append, toRules, checked]
      dsimp only
      rw [ih restValid, List.length_cons, Nat.add_assoc, Nat.add_comm 1]
      rfl

theorem exists_toRules_eq_ok {records : List RuleRecord}
    (valid : ∀ record ∈ records, record.IsValid) (start : Nat) :
    ∃ rules, toRules start records = .ok rules := by
  induction records generalizing start with
  | nil => exact ⟨[], rfl⟩
  | cons first rest ih =>
      rcases List.forall_mem_cons.mp valid with ⟨firstValid, restValid⟩
      rcases exists_toRule_iff.mpr firstValid with ⟨rule, checked⟩
      rcases ih restValid (start + 1) with ⟨rules, restChecked⟩
      exact ⟨rule :: rules, by simp [toRules, checked, restChecked, Except.map]⟩

/-- The places of the records that are not valid. -/
def faultyPlaces (records : List RuleRecord) : Set Nat :=
  {index | ∃ record, records[index]? = some record ∧ ¬record.IsValid}

theorem exists_first_invalid {records : List RuleRecord}
    (notAll : ¬∀ record ∈ records, record.IsValid) :
    ∃ before record after, records = before ++ record :: after ∧
      (∀ earlier ∈ before, earlier.IsValid) ∧ ¬record.IsValid := by
  classical
  cases found : records.find? (fun record => decide ¬record.IsValid) with
  | none => exact absurd (by simpa using found) notAll
  | some record =>
      rcases List.find?_eq_some_iff_append.mp found with ⟨invalid, before, after, split, valid⟩
      exact ⟨before, record, after, split, by simpa using valid, by simpa using invalid⟩

theorem isLeast_faultyPlaces {before : List RuleRecord} {record : RuleRecord}
    (valid : ∀ earlier ∈ before, earlier.IsValid) (invalid : ¬record.IsValid)
    (after : List RuleRecord) :
    IsLeast (faultyPlaces (before ++ record :: after)) before.length := by
  constructor
  · exact ⟨record, by simp, invalid⟩
  · rintro place ⟨other, present, otherInvalid⟩
    by_contra isEarlier
    rw [List.getElem?_append_left (by omega)] at present
    exact otherInvalid (valid other (List.mem_of_getElem? present))

end RuleRecord

namespace RuleSet

open RuleRecord

theorem exists_ofRecords?_iff {records : List RuleRecord} :
    (∃ ruleSet, ofRecords? records = .ok ruleSet) ↔ ∀ record ∈ records, record.IsValid := by
  constructor
  · rintro ⟨ruleSet, accepted⟩ record recordMem
    rcases List.mem_iff_getElem?.mp recordMem with ⟨index, present⟩
    rcases exists_rule_of_getElem? (ofRecords?_eq_ok_iff.mp accepted).1 present with
      ⟨rule, _, isRule⟩
    exact exists_toRule_iff.mp ⟨rule, isRule⟩
  · intro valid
    rcases exists_toRules_eq_ok valid 0 with ⟨rules, checked⟩
    exact ⟨ofRules rules, by rw [ofRecords?, checked]; rfl⟩

/-- A list of records that is refused starts with valid records up to the one that is blamed. -/
theorem ofRecords?_eq_error_iff {records : List RuleRecord} {error : RecordError} :
    ofRecords? records = .error error ↔
      ∃ before record after, records = before ++ record :: after ∧
        (∀ earlier ∈ before, earlier.IsValid) ∧ before.length = error.index ∧
        record.HasFault error.fault := by
  have refuses : ∀ {before : List RuleRecord} {record : RuleRecord} {fault : RecordFault}
      (after : List RuleRecord), (∀ earlier ∈ before, earlier.IsValid) →
      record.HasFault fault →
      ofRecords? (before ++ record :: after) = .error ⟨before.length, fault⟩ := by
    intro before record fault after valid faulty
    rw [ofRecords?, toRules_eq_error valid faulty, Nat.zero_add]
    rfl
  constructor
  · intro refused
    have notAll : ¬∀ record ∈ records, record.IsValid := by
      rw [← exists_ofRecords?_iff, Except.not_exists_ok_iff]
      exact ⟨error, refused⟩
    rcases exists_first_invalid notAll with ⟨before, record, after, rfl, valid, invalid⟩
    rcases exists_hasFault invalid with ⟨fault, faulty⟩
    rw [refuses after valid faulty, Except.error.injEq] at refused
    subst refused
    exact ⟨before, record, after, rfl, valid, rfl, faulty⟩
  · rintro ⟨before, record, after, rfl, valid, isIndex, faulty⟩
    rw [refuses after valid faulty, isIndex]

/-- A list of records is accepted exactly if each of them is valid, and then it has one rule for
each record, at the same place. Otherwise the first record that is not valid is blamed for the fault
that it has, and the records behind it do not matter. -/
theorem checking_blames_first_fault (records : List RuleRecord) :
    ((∃ ruleSet, ofRecords? records = .ok ruleSet) ↔ ∀ record ∈ records, record.IsValid) ∧
    (∀ ruleSet, ofRecords? records = .ok ruleSet →
      ruleSet.rules.length = records.length ∧
      ∀ (index : Nat) (record : RuleRecord), records[index]? = some record →
        ∃ rule, ruleSet.rules[index]? = some rule ∧ record.toRule = .ok rule) ∧
    (∀ error, ofRecords? records = .error error →
      IsLeast (faultyPlaces records) error.index ∧
      (∃ record, records[error.index]? = some record ∧ record.HasFault error.fault) ∧
      ∀ later, ofRecords? (records.take (error.index + 1) ++ later) = .error error) := by
  refine ⟨exists_ofRecords?_iff, ?_, ?_⟩
  · intro ruleSet accepted
    have checked := (ofRecords?_eq_ok_iff.mp accepted).1
    refine ⟨?_, fun index record => exists_rule_of_getElem? checked⟩
    simpa using (congrArg List.length checked).symm
  · intro error refused
    rcases ofRecords?_eq_error_iff.mp refused with
      ⟨before, record, after, rfl, valid, isIndex, faulty⟩
    have invalid : ¬record.IsValid := fun isValid => isValid_iff.mp isValid _ faulty
    rw [← isIndex]
    refine ⟨isLeast_faultyPlaces valid invalid after, ⟨record, by simp, faulty⟩, ?_⟩
    intro later
    have kept : (before ++ record :: after).take (before.length + 1) = before ++ [record] := by
      simp [List.take_append]
    apply ofRecords?_eq_error_iff.mpr
    exact ⟨before, record, later, by simp [kept], valid, isIndex, faulty⟩

/-- The third record is blamed for its release, which comes before its scope, and the fourth is
not looked at. The second has a scope that is not made of exclamation marks alone. -/
theorem checking_blames_first_fault_release :
    let valid : List RuleRecord := [⟨some " ", none, none, some (.flag false)⟩,
      ⟨some " !! \t! ", none, none, some (.level "minor")⟩]
    let records := valid ++ [⟨some "!! ", none, none, some (.level "none")⟩,
      ⟨none, none, none, none⟩]
    let ruleSet := ofRules [⟨none, none, false, .none⟩,
      ⟨some (.isNot "! \t!"), none, false, .minor⟩]
    let error : RecordError := ⟨2, .invalidRelease "\"none\""⟩
    ofRecords? valid = .ok ruleSet ∧ ruleSet.rules.length = 2 ∧
      (∃ rule, ruleSet.rules[1]? = some rule ∧
        toRule ⟨some " !! \t! ", none, none, some (.level "minor")⟩ = .ok rule) ∧
      ofRecords? records = .error error ∧ IsLeast (faultyPlaces records) 2 ∧
      ofRecords? (records.take 3 ++ []) = .error error := by
  intro valid records ruleSet error
  have accepted : ofRecords? valid = .ok ruleSet := by
    decide
  have refused : ofRecords? records = .error error := by
    decide
  have paired := (checking_blames_first_fault valid).2.1 ruleSet accepted
  have blamed := (checking_blames_first_fault records).2.2 error refused
  exact ⟨accepted, paired.1, paired.2 1 _ rfl, refused, blamed.1, blamed.2.2 []⟩

end RuleSet

end ReleaseAdvisor
