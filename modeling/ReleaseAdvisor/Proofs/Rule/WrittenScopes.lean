import ReleaseAdvisor.Proofs.Analysis.RelevantScopes
import ReleaseAdvisor.Proofs.Rule.RecordFaults

/-!
# Scopes as they are written

Which scope a rule keeps of the one that is written. The text is trimmed first, and one exclamation
mark is taken off its start after that. So blanks around the text never count, but blanks between the
mark and the name are inside the trimmed text, and they stay: the rule then excludes a scope that
starts with a blank. No header declares such a scope, so the rule excludes nothing, not even the
scope that it names.
-/

namespace ReleaseAdvisor

namespace ScopePattern

theorem parse_eq_isNot_iff {text scope : String} :
    parse text = .isNot scope ↔ text = "!" ++ scope := by
  constructor
  · intro parsed
    unfold parse at parsed
    split at parsed
    · rename_i excluded negated
      cases parsed
      rw [← String.toList_inj, negated]
      simp
    · contradiction
  · rintro rfl
    simp [parse]

theorem parse_eq_is_iff {text scope : String} :
    parse text = .is scope ↔ text = scope ∧ text.toList.head? ≠ some '!' := by
  unfold parse
  split
  · rename_i excluded negated
    simp [negated]
  · rename_i notNegated
    simp only [is.injEq, iff_self_and, ne_eq, List.head?_eq_some_iff]
    rintro - ⟨excluded, negated⟩
    exact notNegated excluded negated

end ScopePattern

theorem Rule.admits_of_scope {rule : Rule} {pattern : ScopePattern}
    (isScope : rule.scope? = some pattern) (keywords : List String) (commit : ScopedCommit) :
    rule.admits keywords commit =
      (pattern.admits commit.scope &&
        { rule with scope? := none }.admits keywords commit) := by
  simp [admits, isScope, Bool.and_assoc]

namespace RuleRecord

/-! ## What is kept of a written scope -/

theorem patternOf_eq_some_iff {text : String} {pattern : ScopePattern} :
    patternOf (some text) = .ok (some pattern) ↔
      (∃ character ∈ (Text.trimmed text).toList, character ≠ '!') ∧
        ScopePattern.parse (Text.trimmed text) = pattern := by
  rw [patternOf_some]
  split
  · rename_i blank
    simp [blank]
  · have marks := all_isBlank_dropWhile_iff (Text.isTrimmed_trimmed text)
    split
    · rename_i onlyMarks
      simpa using fun character inside other => absurd (marks.mp onlyMarks character inside) other
    · rename_i notOnlyMarks
      rw [marks] at notOnlyMarks
      simpa using fun _ => notOnlyMarks

theorem patternOf_eq_isNot_iff {text scope : String} :
    patternOf (some text) = .ok (some (.isNot scope)) ↔
      Text.trimmed text = "!" ++ scope ∧ ∃ character ∈ scope.toList, character ≠ '!' := by
  rw [patternOf_eq_some_iff, ScopePattern.parse_eq_isNot_iff, and_comm]
  apply and_congr_right
  intro negated
  simp [negated]

/-- A scope is named outright by a text that has it between blanks. -/
theorem patternOf_eq_is_iff {text scope : String} :
    patternOf (some text) = .ok (some (.is scope)) ↔
      Text.trimmed text = scope ∧ scope ≠ "" ∧ scope.toList.head? ≠ some '!' := by
  rw [patternOf_eq_some_iff, ScopePattern.parse_eq_is_iff]
  constructor
  · rintro ⟨⟨character, inside, _⟩, rfl, unmarked⟩
    refine ⟨rfl, ?_, unmarked⟩
    intro nothing
    simp [nothing] at inside
  · rintro ⟨rfl, nonempty, unmarked⟩
    refine ⟨?_, rfl, unmarked⟩
    rw [ne_eq, ← String.toList_eq_nil_iff] at nonempty
    rcases List.exists_cons_of_ne_nil nonempty with ⟨first, rest, split⟩
    rw [split] at unmarked ⊢
    exact ⟨first, List.mem_cons_self, by simpa using unmarked⟩

theorem patternOf_padded (text : String) {before after : String}
    (blankBefore : Text.isBlankString before) (blankAfter : Text.isBlankString after) :
    patternOf (some (before ++ text ++ after)) = patternOf (some text) := by
  rw [patternOf_some, patternOf_some, Text.trimmed_padded text blankBefore blankAfter]

/-! ## Negated scopes -/

/-- A negated scope as it may be written: an exclamation mark and a name, with blanks before them,
between them and behind them. -/
structure Negation where
  before : String
  gap : String
  name : String
  after : String
  blankBefore : Text.isBlankString before
  blankGap : Text.isBlankString gap
  blankAfter : Text.isBlankString after
  trimmed : Text.IsTrimmed name.toList
  unmarked : name.toList.head? ≠ some '!'

namespace Negation

variable (negation : Negation)

def text : String :=
  negation.before ++ "!" ++ negation.gap ++ negation.name ++ negation.after

/-- What stands behind the exclamation mark. -/
def kept : String :=
  negation.gap ++ negation.name

/-- The same negation without any blanks. -/
def plain : Negation where
  before := ""
  gap := ""
  name := negation.name
  after := ""
  blankBefore := rfl
  blankGap := rfl
  blankAfter := rfl
  trimmed := negation.trimmed
  unmarked := negation.unmarked

theorem text_plain : negation.plain.text = "!" ++ negation.name := by
  simp [text, plain]

theorem kept_plain : negation.plain.kept = negation.name := by
  simp [kept, plain]

variable {negation}

theorem trimmed_text (named : negation.name ≠ "") :
    Text.trimmed negation.text = "!" ++ negation.kept := by
  have split : negation.text = negation.before ++ ("!" ++ negation.kept) ++ negation.after := by
    simp only [text, kept, String.append_assoc]
  have ends : negation.name.toList ≠ [] := by
    rwa [ne_eq, String.toList_eq_nil_iff]
  have bounded : Text.IsTrimmed ("!" ++ negation.kept).toList := by
    constructor
    · simp [Text.isBlank]
    · rw [kept, String.toList_append, String.toList_append, ← List.append_assoc,
        List.getLast?_append_of_ne_nil _ ends]
      exact negation.trimmed.ending
  rw [split, Text.trimmed_padded _ negation.blankBefore negation.blankAfter]
  exact Text.trimmed_eq_self_iff.mpr bounded

theorem trimmed_text_of_nameless (nameless : negation.name = "") :
    Text.trimmed negation.text = "!" := by
  have split : negation.text = negation.before ++ "!" ++ (negation.gap ++ negation.after) := by
    simp only [text, nameless, String.append_empty, String.append_assoc]
  have blank : Text.isBlankString (negation.gap ++ negation.after) := by
    rw [Text.isBlankString, String.toList_append, List.all_append, Bool.and_eq_true]
    exact ⟨negation.blankGap, negation.blankAfter⟩
  rw [split, Text.trimmed_padded _ negation.blankBefore blank]
  decide

theorem patternOf_text (named : negation.name ≠ "") :
    patternOf (some negation.text) = .ok (some (.isNot negation.kept)) := by
  refine patternOf_eq_isNot_iff.mpr ⟨trimmed_text named, ?_⟩
  rw [ne_eq, ← String.toList_eq_nil_iff] at named
  rcases List.exists_cons_of_ne_nil named with ⟨first, rest, split⟩
  have unmarked := negation.unmarked
  rw [split] at unmarked
  refine ⟨first, ?_, by simpa using unmarked⟩
  simp [kept, split]

theorem patternOf_text_of_nameless (nameless : negation.name = "") :
    patternOf (some negation.text) = .error .emptyScope := by
  rw [patternOf_some, trimmed_text_of_nameless nameless]
  decide

theorem kept_eq_name_iff : negation.kept = negation.name ↔ negation.gap = "" := by
  rw [kept, ← String.toList_inj, String.toList_append, List.append_left_eq_self,
    String.toList_eq_nil_iff]

theorem patternOf_text_eq_plain_iff :
    patternOf (some negation.text) = patternOf (some ("!" ++ negation.name)) ↔
      negation.gap = "" ∨ negation.name = "" := by
  rw [← text_plain]
  by_cases nameless : negation.name = ""
  · have plainNameless : negation.plain.name = "" := nameless
    rw [patternOf_text_of_nameless nameless, patternOf_text_of_nameless plainNameless]
    simp only [nameless, or_true]
  · have plainNamed : negation.plain.name ≠ "" := nameless
    rw [patternOf_text nameless, patternOf_text plainNamed, kept_plain]
    simp only [Except.ok.injEq, Option.some.injEq, ScopePattern.isNot.injEq, kept_eq_name_iff,
      nameless, or_false]

/-- The name itself is excluded only where no blanks stand before it. -/
theorem admits_name_iff :
    (ScopePattern.isNot negation.kept).admits negation.name ↔ negation.gap ≠ "" := by
  rw [ScopePattern.admits, bne_iff_ne, ne_comm, ne_eq, kept_eq_name_iff]

/-- No header declares a scope that starts with a blank. -/
theorem admits_of_isScopeName {scope : String} (separated : negation.gap ≠ "")
    (isName : Header.IsScopeName scope) : (ScopePattern.isNot negation.kept).admits scope := by
  rw [ScopePattern.admits, bne_iff_ne]
  rintro rfl
  rw [ne_eq, ← String.toList_eq_nil_iff] at separated
  rcases List.exists_cons_of_ne_nil separated with ⟨first, rest, split⟩
  have notBlank : Text.isBlank first = false := by
    apply isName.trimmed.start
    simp [kept, split]
  have blank : Text.isBlank first := by
    apply List.all_eq_true.mp negation.blankGap
    simp [split]
  rw [notBlank] at blank
  contradiction

end Negation

/-! ## The rules of padded records -/

/-- The record with another text for its scope. -/
def withScope (record : RuleRecord) (text : String) : RuleRecord :=
  { record with scope? := some text }

variable {record : RuleRecord}

/-- The scope of a record counts unless its release is refused. -/
theorem toRule_withScope_eq_iff {text other : String} :
    (record.withScope text).toRule = (record.withScope other).toRule ↔
      patternOf (some text) = patternOf (some other) ∨
        ∃ fault, levelOf record.release? = .error fault := by
  cases isLevel : levelOf record.release? with
  | error fault => simp [toRule, withScope, isLevel, bind, Except.bind]
  | ok level =>
      simp only [toRule, withScope, isLevel, bind, Except.bind, reduceCtorEq, exists_false, or_false]
      cases patternOf (some text) <;> cases patternOf (some other) <;>
        simp [pure, Except.pure]

theorem scope?_of_toRule_withScope {text : String} {rule : Rule} {pattern : ScopePattern}
    (read : patternOf (some text) = .ok (some pattern))
    (checked : (record.withScope text).toRule = .ok rule) : rule.scope? = some pattern := by
  have kept := (toRule_eq_ok_iff.mp checked).2.1
  rw [withScope, read, Except.ok.injEq] at kept
  exact kept.symm

/-! ## Which blanks count -/

theorem toRule_padded (record : RuleRecord) (text : String) {before after : String}
    (blankBefore : Text.isBlankString before) (blankAfter : Text.isBlankString after) :
    (record.withScope (before ++ text ++ after)).toRule = (record.withScope text).toRule :=
  toRule_withScope_eq_iff.mpr (Or.inl (patternOf_padded text blankBefore blankAfter))

section Kept

variable {records : List RuleRecord} {ruleSet : RuleSet}
  (accepted : RuleSet.ofRecords? records = .ok ruleSet) {index : Nat} {rule : Rule}
  (stands : ruleSet.rules[index]? = some rule)

include accepted stands

/-- A rule with a scope comes from a record with one at the same place. -/
theorem exists_written_of_scope? {pattern : ScopePattern} (isScope : rule.scope? = some pattern) :
    ∃ written, records[index]?.bind (·.scope?) = some written ∧
      patternOf (some written) = .ok (some pattern) := by
  have checked := (RuleSet.ofRecords?_eq_ok_iff.mp accepted).1
  rcases exists_record_of_getElem? checked stands with ⟨record, present, isRule⟩
  have read := (toRule_eq_ok_iff.mp isRule).2.1
  rw [isScope] at read
  cases isWritten : record.scope? with
  | none =>
      rw [isWritten] at read
      cases read
  | some written =>
      rw [isWritten] at read
      exact ⟨written, by simp [present, isWritten], read⟩

theorem isTrimmed_of_is {scope : String} (isScope : rule.scope? = some (.is scope)) :
    Text.IsTrimmed scope.toList := by
  rcases exists_written_of_scope? accepted stands isScope with ⟨written, _, read⟩
  rw [← (patternOf_eq_is_iff.mp read).1]
  exact Text.isTrimmed_trimmed written

/-- What a rule excludes is what stands behind the mark, up to the blanks at the end. -/
theorem exists_written_of_isNot {scope : String} (isScope : rule.scope? = some (.isNot scope)) :
    ∃ written, records[index]?.bind (·.scope?) = some written ∧
      Text.trimmed written = "!" ++ scope ∧
      (Text.IsTrimmed scope.toList ↔
        ∀ first ∈ scope.toList.head?, Text.isBlank first = false) := by
  rcases exists_written_of_scope? accepted stands isScope with ⟨written, isWritten, read⟩
  have marked := (patternOf_eq_isNot_iff.mp read).1
  refine ⟨written, isWritten, marked, Text.IsTrimmed.start, ?_⟩
  intro start
  refine ⟨start, ?_⟩
  intro last isLast
  apply (Text.isTrimmed_trimmed written).ending
  rw [marked, String.toList_append]
  exact List.mem_getLast?_append_of_mem_getLast? isLast

end Kept

/-- A rule with a negated scope matches no commit of the scope that it names if no blanks stand behind
the mark. With blanks there its scope makes no difference to any commit. -/
theorem admits_of_negation {negation : Negation} {rule : Rule}
    (isScope : rule.scope? = some (.isNot negation.kept)) (keywords : List String)
    {commit : Commit} {target : String} {own : ScopedCommit}
    (narrowed : commit.narrow? target = some own) :
    (negation.gap = "" → target = negation.name → rule.admits keywords own = false) ∧
      (negation.gap ≠ "" →
        rule.admits keywords own = { rule with scope? := none }.admits keywords own) := by
  have isName := Commit.isScopeName_of_narrow? narrowed
  rcases Commit.narrow?_eq_some_iff.mp narrowed with ⟨header, _, _, rfl⟩
  rw [Rule.admits_of_scope isScope, Bool.and_eq_false_imp]
  constructor
  · rintro together rfl admitted
    exact absurd together (Negation.admits_name_iff.mp admitted)
  · intro separated
    rw [Negation.admits_of_isScopeName separated isName, Bool.true_and]

/-- Blanks around a written scope never count, and a scope that a rule names outright is trimmed.
What a rule excludes is what stands behind the exclamation mark, so it is trimmed unless blanks stand
there. With such blanks a negation makes another rule than without them, unless it has no name or the
release of the record is refused. That rule does not spare the scope that it names: it matches every
commit of every module as if it had no scope. -/
theorem blanks_behind_mark_stay (record : RuleRecord) (negation : Negation) :
    (∀ text before after, Text.isBlankString before → Text.isBlankString after →
      (record.withScope (before ++ text ++ after)).toRule = (record.withScope text).toRule) ∧
    (∀ (records : List RuleRecord) (ruleSet : RuleSet), RuleSet.ofRecords? records = .ok ruleSet →
      ∀ (index : Nat) (rule : Rule) (scope : String), ruleSet.rules[index]? = some rule →
        (rule.scope? = some (.is scope) → Text.IsTrimmed scope.toList) ∧
        (rule.scope? = some (.isNot scope) →
          ∃ written, records[index]?.bind (·.scope?) = some written ∧
            Text.trimmed written = "!" ++ scope ∧
            (Text.IsTrimmed scope.toList ↔
              ∀ first ∈ scope.toList.head?, Text.isBlank first = false))) ∧
    ((record.withScope negation.text).toRule = (record.withScope ("!" ++ negation.name)).toRule ↔
      (negation.gap = "" ∨ negation.name = "") ∨
        ∃ fault, levelOf record.release? = .error fault) ∧
    (∀ rule, negation.name ≠ "" → (record.withScope negation.text).toRule = .ok rule →
      rule.scope? = some (.isNot (negation.gap ++ negation.name)) ∧
      ∀ (keywords : List String) (commit : Commit) (target : String) (own : ScopedCommit),
        commit.narrow? target = some own →
          (negation.gap = "" → target = negation.name → rule.admits keywords own = false) ∧
          (negation.gap ≠ "" →
            rule.admits keywords own = { rule with scope? := none }.admits keywords own)) := by
  refine ⟨?_, ?_, ?_, ?_⟩
  · intro text before after blankBefore blankAfter
    exact toRule_padded record text blankBefore blankAfter
  · intro records ruleSet accepted index rule scope stands
    exact ⟨isTrimmed_of_is accepted stands, exists_written_of_isNot accepted stands⟩
  · rw [toRule_withScope_eq_iff, Negation.patternOf_text_eq_plain_iff]
  · intro rule named checked
    have isScope := scope?_of_toRule_withScope (Negation.patternOf_text named) checked
    refine ⟨isScope, ?_⟩
    intro keywords commit target own narrowed
    exact admits_of_negation isScope keywords narrowed

/-- A tab behind the mark makes a rule for no release match the commits that it should spare. -/
theorem blanks_behind_mark_stay_tab :
    let record : RuleRecord := ⟨none, none, none, some (.flag false)⟩
    let negation : Negation := ⟨" ", "\t", "core", "\n", rfl, rfl, rfl,
      Text.trimmed_eq_self_iff.mp (by decide), by decide⟩
    let rules : List Rule :=
      [⟨some (.is "core"), none, false, .none⟩, ⟨some (.isNot "\tcore"), none, false, .none⟩]
    let own : ScopedCommit := ⟨"fix", "core", "x", "fix(core): x", "fix(api,core): x", ""⟩
    (Text.isBlankString " " ∧ Text.isBlankString "\u3000" ∧
      (record.withScope (" " ++ "core" ++ "\u3000")).toRule = (record.withScope "core").toRule) ∧
    (RuleSet.ofRecords? [record.withScope " core", record.withScope negation.text] =
        .ok (.ofRules rules) ∧
      Text.IsTrimmed "core".toList ∧ ¬Text.IsTrimmed "\tcore".toList) ∧
    negation.name ≠ "" ∧ (record.withScope negation.text).toRule = .ok rules[1] ∧
      Commit.narrow? ⟨"fix(api,core): x", ""⟩ "core" = some own ∧
      rules[1].admits [] own = true := by
  intro record negation rules own
  have accepted : RuleSet.ofRecords? [record.withScope " core", record.withScope negation.text] =
      .ok (.ofRules rules) := by
    decide
  have checked : (record.withScope negation.text).toRule = .ok rules[1] := by
    decide
  have narrowed : Commit.narrow? ⟨"fix(api,core): x", ""⟩ "core" = some own := by
    decide
  have named : negation.name ≠ "" := by
    decide
  rcases blanks_behind_mark_stay record negation with ⟨padded, keptNames, _, negated⟩
  rcases (keptNames _ _ accepted 1 rules[1] "\tcore" rfl).2 rfl with ⟨_, _, _, trimmed⟩
  have tabStays : ¬Text.IsTrimmed "\tcore".toList := by
    rw [trimmed]
    intro start
    exact absurd (start '\t' rfl) (by decide)
  have matched := ((negated rules[1] named checked).2 [] _ _ own narrowed).2
    (by decide)
  exact ⟨⟨rfl, rfl, padded "core" " " "\u3000" rfl rfl⟩,
    ⟨accepted, (keptNames _ _ accepted 0 rules[0] "core" rfl).1 rfl, tabStays⟩, named, checked,
    narrowed, matched.trans (by decide)⟩

/-- With a blank behind the mark the record that should spare `core` takes the release away from its
own commits. The same list without the blank gives them the minor release of the next record. -/
theorem blank_behind_mark_spares_nothing :
    let next : RuleRecord := ⟨some "core", none, none, some (.level "minor")⟩
    let gapped : List RuleRecord := [⟨some "! core", none, none, some (.flag false)⟩, next]
    let plain : List RuleRecord := [⟨some "!core", none, none, some (.flag false)⟩, next]
    let named : Rule := ⟨some (.is "core"), none, false, .minor⟩
    let own : ScopedCommit := ⟨"feat", "core", "x", "feat(core): x", "feat(core): x", ""⟩
    RuleSet.ofRecords? gapped =
        .ok (.ofRules [⟨some (.isNot " core"), none, false, .none⟩, named]) ∧
      ¬Text.IsTrimmed " core".toList ∧
      RuleSet.ofRecords? plain =
        .ok (.ofRules [⟨some (.isNot "core"), none, false, .none⟩, named]) ∧
      Commit.narrow? ⟨"feat(core): x", ""⟩ "core" = some own ∧
      RuleSet.classify (.ofRules [⟨some (.isNot " core"), none, false, .none⟩, named]) own =
        ⟨.none, some 0⟩ ∧
      RuleSet.classify (.ofRules [⟨some (.isNot "core"), none, false, .none⟩, named]) own =
        ⟨.minor, some 1⟩ := by
  intro next gapped plain named own
  have gapStays : ¬Text.IsTrimmed " core".toList := by
    rw [← Text.trimmed_eq_self_iff]
    decide
  exact ⟨by decide, gapStays, by decide, by decide, by decide, by decide⟩

end RuleRecord

end ReleaseAdvisor
