import Mathlib.Order.Bounds.Basic
import ReleaseAdvisor.Proofs.Rule.Checking
import ReleaseAdvisor.Proofs.Rule.FirstMatch
import ReleaseAdvisor.Proofs.Text.Trimming

/-!
# Rules as they are written decide

What a list of records says about a commit, read off the records themselves: which of them match,
and that the first of these decides with the release written in it. The rules that the records are
checked into stand at the same places and match the same commits, so a rule set says exactly this.
Padding of a scope, the exclamation mark that negates one and missing keywords are dealt with in
the records' own terms here.
-/

namespace ReleaseAdvisor

namespace RuleRecord

/-- Whether a written scope lets a scope through. One exclamation mark in front excludes the text
after it; a scope that is missing or blank lets everything through. -/
def AdmitsScope (written? : Option String) (scope : String) : Prop :=
  let text := Text.trimmed (written?.getD "")
  text = "" ∨ (∃ excluded, text = "!" ++ excluded ∧ scope ≠ excluded) ∨
    (∀ excluded, text ≠ "!" ++ excluded) ∧ scope = text

/-- Whether a record as it is written matches a commit. -/
structure Matches (record : RuleRecord) (keywords : List String) (commit : ScopedCommit) :
    Prop where
  scope : AdmitsScope record.scope? commit.scope
  type : ∀ type ∈ record.type?, type = commit.type
  breaking : record.breaking? = some true → BreakingNote.isIn commit.body keywords

/-- The places of the records that match a commit. -/
def matchingPlaces (records : List RuleRecord) (keywords : List String) (commit : ScopedCommit) :
    Set Nat :=
  {index | ∃ record, records[index]? = some record ∧ record.Matches keywords commit}

end RuleRecord

theorem ScopePattern.admits_parse_iff {text scope : String} :
    (parse text).admits scope ↔
      (∃ excluded, text = "!" ++ excluded ∧ scope ≠ excluded) ∨
        (∀ excluded, text ≠ "!" ++ excluded) ∧ scope = text := by
  unfold parse
  split
  · rename_i excluded negated
    have textEq : text = "!" ++ String.ofList excluded := by
      rw [← String.toList_inj, negated]
      simp
    simp [textEq, admits]
  · rename_i notNegated
    have noMark : ∀ excluded, text ≠ "!" ++ excluded := by
      rintro excluded rfl
      exact notNegated excluded.toList (by simp)
    simp [noMark, admits]

namespace RuleRecord

theorem patternOf_eq_ok {written? : Option String} {pattern? : Option ScopePattern}
    (read : patternOf written? = .ok pattern?) (scope : String) :
    pattern?.all (·.admits scope) ↔ AdmitsScope written? scope := by
  cases written? with
  | none =>
      cases read
      simp [AdmitsScope, Text.trimmed_eq_empty_iff, Text.isBlankString]
  | some text =>
      rw [patternOf_some] at read
      rw [AdmitsScope, Option.getD_some]
      generalize Text.trimmed text = trimmed at read ⊢
      split at read
      · rename_i blank
        simp only [Except.ok.injEq] at read
        simp [← read, blank]
      · rename_i notBlank
        split at read
        · simp at read
        · simp only [Except.ok.injEq] at read
          simp only [← read, Option.all_some, ScopePattern.admits_parse_iff, notBlank, false_or]

theorem admits_iff_matches {record : RuleRecord} {rule : Rule} (checked : record.toRule = .ok rule)
    (keywords : List String) (commit : ScopedCommit) :
    rule.admits keywords commit ↔ record.Matches keywords commit := by
  rcases toRule_eq_ok_iff.mp checked with ⟨_, scopeRead, typeEq, breakingEq⟩
  have scopeIff := patternOf_eq_ok scopeRead commit.scope
  have typeIff : rule.type?.all (· == commit.type) ↔ ∀ type ∈ record.type?, type = commit.type := by
    simp [← typeEq, Option.all_eq_true]
  have breakingIff : (!rule.breaking || BreakingNote.isIn commit.body keywords) ↔
      (record.breaking? = some true → BreakingNote.isIn commit.body keywords) := by
    rw [← breakingEq]
    rcases record.breaking? with _ | _ | _ <;> simp
  rw [Rule.admits, Bool.and_eq_true, Bool.and_eq_true, scopeIff, typeIff, breakingIff]
  constructor
  · rintro ⟨⟨scope, type⟩, breaking⟩
    exact ⟨scope, type, breaking⟩
  · rintro ⟨scope, type, breaking⟩
    exact ⟨⟨scope, type⟩, breaking⟩

section Checked

variable {records : List RuleRecord} {rules : List Rule}
  (checked : records.map toRule = rules.map .ok) {keywords : List String} {commit : ScopedCommit}

include checked

theorem mem_matchingPlaces_iff {index : Nat} :
    index ∈ matchingPlaces records keywords commit ↔
      ∃ rule, rules[index]? = some rule ∧ rule.admits keywords commit := by
  constructor
  · rintro ⟨record, present, isMatch⟩
    rcases exists_rule_of_getElem? checked present with ⟨rule, stands, isRule⟩
    exact ⟨rule, stands, (admits_iff_matches isRule keywords commit).mpr isMatch⟩
  · rintro ⟨rule, stands, admitted⟩
    rcases exists_record_of_getElem? checked stands with ⟨record, present, isRule⟩
    exact ⟨record, present, (admits_iff_matches isRule keywords commit).mp admitted⟩

/-- The first matching record decides with the release written in it. -/
theorem isLeast_matchingPlaces_iff {index : Nat} :
    IsLeast (matchingPlaces records keywords commit) index ↔
      ∃ level, (records[index]?.bind (·.release?)).bind (·.meaning?) = some level ∧
        RuleSet.classify ⟨rules, keywords⟩ commit = ⟨level, some index⟩ := by
  constructor
  · rintro ⟨mem, least⟩
    rcases (mem_matchingPlaces_iff checked).mp mem with ⟨rule, stands, admitted⟩
    rcases exists_record_of_getElem? checked stands with ⟨record, present, isRule⟩
    refine ⟨rule.level, ?_, RuleSet.classify_eq_matched_iff.mpr ⟨rule, stands, rfl, admitted, ?_⟩⟩
    · rw [present]
      exact levelOf_eq_ok_iff.mp (toRule_eq_ok_iff.mp isRule).1
    · intro earlier isEarlier other otherStands
      by_contra otherAdmits
      have earlierMem : earlier ∈ matchingPlaces records keywords commit :=
        (mem_matchingPlaces_iff checked).mpr ⟨other, otherStands, by simpa using otherAdmits⟩
      exact absurd (least earlierMem) (by omega)
  · rintro ⟨level, _, decided⟩
    rcases RuleSet.classify_eq_matched_iff.mp decided with ⟨rule, stands, _, admitted, refused⟩
    refine ⟨(mem_matchingPlaces_iff checked).mpr ⟨rule, stands, admitted⟩, ?_⟩
    intro place placeMem
    by_contra isEarlier
    rcases (mem_matchingPlaces_iff checked).mp placeMem with ⟨other, otherStands, otherAdmits⟩
    rw [refused place (by omega) other otherStands] at otherAdmits
    contradiction

theorem matchingPlaces_eq_empty_iff :
    matchingPlaces records keywords commit = ∅ ↔
      RuleSet.classify ⟨rules, keywords⟩ commit = ⟨.none, none⟩ := by
  rw [RuleSet.classify_eq_unmatched_iff, Set.eq_empty_iff_forall_notMem]
  constructor
  · intro noPlace rule ruleMem
    rcases List.mem_iff_getElem?.mp ruleMem with ⟨index, stands⟩
    by_contra admitted
    exact noPlace index
      ((mem_matchingPlaces_iff checked).mpr ⟨rule, stands, by simpa using admitted⟩)
  · intro refused index mem
    rcases (mem_matchingPlaces_iff checked).mp mem with ⟨rule, stands, admitted⟩
    rw [refused rule (List.mem_of_getElem? stands)] at admitted
    contradiction

end Checked

theorem getElem?_take_append {records : List RuleRecord} {index place : Nat}
    (inside : index < records.length) (notBehind : place ≤ index) (later : List RuleRecord) :
    (records.take (index + 1) ++ later)[place]? = records[place]? := by
  rw [List.getElem?_append_left (by rw [List.length_take]; omega),
    List.getElem?_take_of_lt (by omega)]

/-- Records behind the first matching one do not matter. -/
theorem isLeast_matchingPlaces_take {records : List RuleRecord} {keywords : List String}
    {commit : ScopedCommit} {index : Nat}
    (least : IsLeast (matchingPlaces records keywords commit) index) (later : List RuleRecord) :
    (records.take (index + 1) ++ later)[index]? = records[index]? ∧
      IsLeast (matchingPlaces (records.take (index + 1) ++ later) keywords commit) index := by
  rcases least with ⟨⟨record, present, isMatch⟩, least⟩
  have inside : index < records.length := (List.getElem?_eq_some_iff.mp present).1
  have samePlace := getElem?_take_append inside le_rfl later
  refine ⟨samePlace, ⟨record, by rw [samePlace, present], isMatch⟩, ?_⟩
  intro place placeMem
  by_contra isEarlier
  rcases placeMem with ⟨other, otherPresent, otherMatch⟩
  rw [getElem?_take_append inside (by omega)] at otherPresent
  exact isEarlier (least ⟨other, otherPresent, otherMatch⟩)

end RuleRecord

namespace RuleSet

/-- A rule set made of records decides as the records are written. The first record that matches a
commit decides it with its own release, and a commit that no record matches causes no release. What
stands behind the deciding record does not matter, so a record with release `false` keeps all later
ones from a commit. -/
theorem classify_agrees_with_records {records : List RuleRecord} {ruleSet : RuleSet}
    (accepted : ofRecords? records = .ok ruleSet) (keywords : List String)
    (commit : ScopedCommit) :
    let places := RuleRecord.matchingPlaces records (keywordsInForce keywords) commit
    let verdict := (ruleSet.withKeywords keywords).classify commit
    (∀ index, IsLeast places index ↔
      ∃ level, (records[index]?.bind (·.release?)).bind (·.meaning?) = some level ∧
        verdict = ⟨level, some index⟩) ∧
    (places = ∅ ↔ verdict = ⟨.none, none⟩) ∧
    (∀ index, IsLeast places index →
      records[index]?.bind (·.release?) = some (.flag false) → verdict = ⟨.none, some index⟩) ∧
    (∀ index later other, IsLeast places index →
      ofRecords? (records.take (index + 1) ++ later) = .ok other →
        (other.withKeywords keywords).classify commit = verdict) := by
  intro places verdict
  have checked := (ofRecords?_eq_ok_iff.mp accepted).1
  have inForce : verdict = classify ⟨ruleSet.rules, keywordsInForce keywords⟩ commit := by
    rw [← withKeywords_of_ofRecords? accepted]
  have decides : ∀ index, IsLeast places index ↔
      ∃ level, (records[index]?.bind (·.release?)).bind (·.meaning?) = some level ∧
        verdict = ⟨level, some index⟩ := by
    intro index
    rw [inForce]
    exact RuleRecord.isLeast_matchingPlaces_iff checked
  refine ⟨decides, ?_, ?_, ?_⟩
  · rw [inForce]
    exact RuleRecord.matchingPlaces_eq_empty_iff checked
  · intro index least isFalse
    rcases (decides index).mp least with ⟨level, written, decided⟩
    rw [isFalse] at written
    cases written
    exact decided
  · intro index later other least otherAccepted
    rcases (decides index).mp least with ⟨level, written, decided⟩
    rcases RuleRecord.isLeast_matchingPlaces_take least later with ⟨samePlace, otherLeast⟩
    have otherChecked := (ofRecords?_eq_ok_iff.mp otherAccepted).1
    rcases (RuleRecord.isLeast_matchingPlaces_iff otherChecked).mp otherLeast with
      ⟨otherLevel, otherWritten, otherDecided⟩
    rw [samePlace, written, Option.some.injEq] at otherWritten
    rw [withKeywords_of_ofRecords? otherAccepted, otherDecided, decided, otherWritten]

/-- The third record settles a `fix` of `core` for no release, with and without the last one: the
first record excludes that scope, and the second asks for a note under another keyword than the body
has. -/
theorem classify_agrees_with_records_no_release :
    let records : List RuleRecord := [⟨some " !core ", none, none, some (.level "patch")⟩,
      ⟨some "\t", some "fix", some true, some (.level "major")⟩,
      ⟨some "core", some "fix", some false, some (.flag false)⟩,
      ⟨none, none, none, some (.level "patch")⟩]
    let rules : List Rule := [⟨some (.isNot "core"), none, false, .patch⟩,
      ⟨none, some "fix", true, .major⟩, ⟨some (.is "core"), some "fix", false, .none⟩,
      ⟨none, none, false, .patch⟩]
    let commit : ScopedCommit :=
      ⟨"fix", "core", "x", "fix(core): x", "fix(core): x", "BREAKING CHANGE: y"⟩
    ofRecords? records = .ok (ofRules rules) ∧
      IsLeast (RuleRecord.matchingPlaces records (keywordsInForce ["NOTE"]) commit) 2 ∧
      ((ofRules rules).withKeywords ["NOTE"]).classify commit = ⟨.none, some 2⟩ ∧
      ofRecords? (records.take 3 ++ []) = .ok (ofRules (rules.take 3)) ∧
      ((ofRules (rules.take 3)).withKeywords ["NOTE"]).classify commit = ⟨.none, some 2⟩ := by
  intro records rules commit
  have accepted : ofRecords? records = .ok (ofRules rules) := by
    decide
  have frontAccepted : ofRecords? (records.take 3 ++ []) = .ok (ofRules (rules.take 3)) := by
    decide
  have agrees := classify_agrees_with_records accepted ["NOTE"] commit
  have least := (agrees.1 2).mpr ⟨.none, by decide, by decide⟩
  have decided := agrees.2.2.1 2 least rfl
  refine ⟨accepted, least, decided, frontAccepted, ?_⟩
  rw [agrees.2.2.2 2 [] _ least frontAccepted]
  exact decided

end RuleSet

end ReleaseAdvisor
