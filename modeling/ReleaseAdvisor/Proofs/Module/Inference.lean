import ReleaseAdvisor.Module.Legacy
import ReleaseAdvisor.Proofs.Rule.WrittenScopes
import ReleaseAdvisor.Proofs.Text.Occurrence

/-!
# What is inferred from a legacy document

A legacy document states no identity. Its tag format gives the tag prefix and its records give the
commit scope, and both can be read off as they are written: the prefix is what remains of the format
without the first placeholder, and the scope is the one that the first record names which names one.
The two may fail independently. A prefix is missing only if the format is, or if it is empty or
nothing but the placeholder, because taking out an occurrence leaves nothing of no other text. A
scope is missing only if every record leaves it blank or negates one.
-/

namespace ReleaseAdvisor

theorem ScopePattern.positive?_eq_some_iff {pattern : ScopePattern} {scope : String} :
    pattern.positive? = some scope ↔ pattern = .is scope := by
  cases pattern <;> simp [ScopePattern.positive?]

namespace RuleRecord

/-- Whether a record names a scope outright: the trimmed text is that scope, and it is neither empty
nor negated. -/
def Names (record : RuleRecord) (scope : String) : Prop :=
  ∃ text ∈ record.scope?, Text.trimmed text = scope ∧ scope ≠ "" ∧ scope.toList.head? ≠ some '!'

/-- The scope of the first record that names one. -/
def FirstNamed (records : List RuleRecord) (scope : String) : Prop :=
  records.FirstResult Names scope

def NoneNamed (records : List RuleRecord) : Prop :=
  records.NoResult Names

/-- The scope that a record names, seen through its rule. -/
def named? (record : RuleRecord) : Option String :=
  record.toRule.toOption.bind fun rule => rule.scope?.bind (·.positive?)

theorem named?_eq_some_iff {record : RuleRecord} {rule : Rule} (checked : record.toRule = .ok rule)
    {scope : String} : record.named? = some scope ↔ record.Names scope := by
  have read := (toRule_eq_ok_iff.mp checked).2.1
  have seen : record.named? = some scope ↔ rule.scope? = some (.is scope) := by
    simp [named?, checked, Except.toOption, Option.bind_eq_some_iff,
      ScopePattern.positive?_eq_some_iff]
  have written : rule.scope? = some (.is scope) ↔
      patternOf record.scope? = .ok (some (.is scope)) := by
    rw [read, Except.ok.injEq]
  rw [seen, written, Names]
  cases record.scope? with
  | none => simp [patternOf]
  | some text => simp [patternOf_eq_is_iff]

end RuleRecord

namespace RuleSet

open RuleRecord

variable {records : List RuleRecord} {ruleSet : RuleSet}
  (accepted : ofRecords? records = .ok ruleSet)

include accepted

theorem firstPositiveScope?_eq_findSome? :
    ruleSet.firstPositiveScope? = records.findSome? named? := by
  let positive? (rule : Rule) : Option String := rule.scope?.bind (·.positive?)
  calc ruleSet.firstPositiveScope?
    _ = (ruleSet.rules.map Except.ok).findSome?
          fun (checked : Except RecordFault Rule) => checked.toOption.bind positive? := by
      rw [List.findSome?_map]
      rfl
    _ = records.findSome? named? := by
      rw [← (ofRecords?_eq_ok_iff.mp accepted).1, List.findSome?_map]
      rfl

theorem named?_eq_some_iff_of_mem {record : RuleRecord} (recordMem : record ∈ records)
    {scope : String} : record.named? = some scope ↔ record.Names scope := by
  rcases List.mem_iff_getElem?.mp recordMem with ⟨index, present⟩
  rcases exists_rule_of_getElem? (ofRecords?_eq_ok_iff.mp accepted).1 present with
    ⟨rule, _, checked⟩
  exact named?_eq_some_iff checked

theorem firstPositiveScope?_eq_some_iff {scope : String} :
    ruleSet.firstPositiveScope? = some scope ↔ FirstNamed records scope := by
  rw [firstPositiveScope?_eq_findSome? accepted]
  apply List.findSome?_eq_some_iff_firstResult
  intro record recordMem scope
  exact named?_eq_some_iff_of_mem accepted recordMem

theorem firstPositiveScope?_eq_none_iff :
    ruleSet.firstPositiveScope? = none ↔ NoneNamed records := by
  rw [firstPositiveScope?_eq_findSome? accepted]
  apply List.findSome?_eq_none_iff_noResult
  intro record recordMem scope
  exact named?_eq_some_iff_of_mem accepted recordMem

omit accepted in
theorem firstPositiveScope?_withKeywords (ruleSet : RuleSet) (keywords : List String) :
    (ruleSet.withKeywords keywords).firstPositiveScope? = ruleSet.firstPositiveScope? := by
  rw [withKeywords]
  split <;> rfl

end RuleSet

namespace RuleRecord

theorem FirstNamed.ne_empty {records : List RuleRecord} {scope : String}
    (first : FirstNamed records scope) : scope ≠ "" := by
  rcases first with ⟨_, _, _, _, _, _, _, _, nonempty, _⟩
  exact nonempty

theorem FirstNamed.not_noneNamed {records : List RuleRecord} {scope : String}
    (first : FirstNamed records scope) : ¬NoneNamed records :=
  List.FirstResult.not_noResult first

end RuleRecord

namespace LegacySource

open RuleRecord

/-! ## The tag prefix -/

/-- A tag format that leaves no prefix. -/
def LacksPrefix (tagFormat? : Option String) (placeholder : String) : Prop :=
  ∀ template ∈ tagFormat?, template = "" ∨ template = placeholder

/-- A tag format that leaves a prefix: what remains of it without the first placeholder. -/
def LeavesPrefix (tagFormat? : Option String) (placeholder tagPrefix : String) : Prop :=
  ∃ template ∈ tagFormat?, template ≠ "" ∧ template ≠ placeholder ∧
    Text.FirstErased placeholder.toList template.toList tagPrefix.toList

variable {tagFormat? : Option String} {placeholder directoryName : String}

theorem tagPrefixOf_eq_empty_iff :
    tagPrefixOf tagFormat? placeholder = "" ↔ LacksPrefix tagFormat? placeholder := by
  cases tagFormat? with
  | none => simp [tagPrefixOf, LacksPrefix]
  | some template =>
      simp only [tagPrefixOf, LacksPrefix, Option.mem_some_iff, forall_eq',
        String.ofList_eq_empty_iff, Text.eraseFirst_eq_nil_iff, String.toList_eq_nil_iff,
        String.toList_inj]

theorem leavesPrefix_iff {tagPrefix : String} :
    LeavesPrefix tagFormat? placeholder tagPrefix ↔
      tagPrefixOf tagFormat? placeholder = tagPrefix ∧ ¬LacksPrefix tagFormat? placeholder := by
  cases tagFormat? with
  | none => simp [LeavesPrefix, LacksPrefix]
  | some template =>
      simp only [LeavesPrefix, LacksPrefix, tagPrefixOf, Option.mem_some_iff, exists_eq_left',
        forall_eq', not_or, Text.firstErased_iff]
      rw [← String.toList_inj, String.toList_ofList]
      constructor
      · rintro ⟨nonempty, other, remains⟩
        exact ⟨remains, nonempty, other⟩
      · rintro ⟨remains, nonempty, other⟩
        exact ⟨nonempty, other, remains⟩

/-- A template cut at its first placeholder: before no other one stands less. -/
structure CutAtFirst (placeholder template before after : String) : Prop where
  split : template = before ++ placeholder ++ after
  isFirst : ∀ earlier later, template = earlier ++ placeholder ++ later →
    before.length ≤ earlier.length

section Cut

variable {template before after : String}

theorem infix_iff_exists_split :
    placeholder.toList <:+: template.toList ↔
      ∃ before after, template = before ++ placeholder ++ after := by
  constructor
  · rintro ⟨before, after, split⟩
    refine ⟨String.ofList before, String.ofList after, ?_⟩
    simp [← String.toList_inj, ← split]
  · rintro ⟨before, after, rfl⟩
    exact ⟨before.toList, after.toList, by simp⟩

theorem CutAtFirst.firstErased (cut : CutAtFirst placeholder template before after) :
    Text.FirstErased placeholder.toList template.toList (before.toList ++ after.toList) := by
  refine Text.FirstErased.erased before.toList after.toList ?_ ?_
  · simp [cut.split]
  · intro earlier later split
    have other : template = String.ofList earlier ++ placeholder ++ String.ofList later := by
      simp [← String.toList_inj, split]
    simpa [String.length_toList] using cut.isFirst _ _ other

theorem CutAtFirst.tagPrefixOf_eq (cut : CutAtFirst placeholder template before after) :
    tagPrefixOf (some template) placeholder = before ++ after := by
  rw [tagPrefixOf, Text.firstErased_iff.mp cut.firstErased, ← String.toList_append,
    String.ofList_toList]

theorem exists_cutAtFirst (occurs : placeholder.toList <:+: template.toList) :
    ∃ before after, CutAtFirst placeholder template before after := by
  have leaves := Text.firstErased_eraseFirst placeholder.toList template.toList
  generalize Text.eraseFirst placeholder.toList template.toList = remains at leaves
  cases leaves with
  | absent noOccurrence => exact absurd occurs noOccurrence
  | erased before after split isFirst =>
      refine ⟨String.ofList before, String.ofList after, ?_, ?_⟩
      · simp [← String.toList_inj, ← split]
      · rintro earlier later rfl
        simpa [String.length_toList] using isFirst earlier.toList later.toList (by simp)

theorem tagPrefixOf_of_absent (absent : ¬placeholder.toList <:+: template.toList) :
    tagPrefixOf (some template) placeholder = template := by
  rw [tagPrefixOf, Text.firstErased_iff.mp (Text.FirstErased.absent absent), String.ofList_toList]

end Cut

/-- A template that is cut at its first placeholder leaves what stands before and after it, and
every template that has a placeholder can be cut so. A template without one is left as it is. Nothing
is left only of an empty template and of the placeholder itself. -/
theorem first_placeholder_taken_out (template placeholder : String) :
    (∀ before after, CutAtFirst placeholder template before after →
      tagPrefixOf (some template) placeholder = before ++ after) ∧
    ((∃ before after, template = before ++ placeholder ++ after) →
      ∃ before after, CutAtFirst placeholder template before after) ∧
    ((¬∃ before after, template = before ++ placeholder ++ after) →
      tagPrefixOf (some template) placeholder = template) ∧
    (tagPrefixOf (some template) placeholder = "" ↔ template = "" ∨ template = placeholder) := by
  rw [← infix_iff_exists_split]
  refine ⟨fun _ _ cut => cut.tagPrefixOf_eq, exists_cutAtFirst, tagPrefixOf_of_absent, ?_⟩
  rw [tagPrefixOf_eq_empty_iff, LacksPrefix]
  simp

/-- Of two placeholders that overlap the first is taken out, and what it leaves of the second stays.
An empty placeholder leaves the template as it is, and so does one that is absent. -/
theorem first_placeholder_taken_out_overlapping :
    CutAtFirst "abab" "xababab" "x" "ab" ∧ tagPrefixOf (some "xababab") "abab" = "xab" ∧
      (∃ before after, CutAtFirst "" "Sv" before after) ∧ tagPrefixOf (some "Sv") "" = "Sv" ∧
      (¬∃ before after, "Sv" = before ++ "$" ++ after) ∧ tagPrefixOf (some "Sv") "$" = "Sv" := by
  have cut : CutAtFirst "abab" "xababab" "x" "ab" := by
    refine ⟨by decide, ?_⟩
    intro earlier later split
    cases earlierEq : earlier.toList with
    | nil =>
        have sameChars := congrArg String.toList split
        simp [earlierEq] at sameChars
    | cons first rest =>
        rw [← String.length_toList, ← String.length_toList, earlierEq]
        exact Nat.succ_le_succ (Nat.zero_le rest.length)
  have absent : ¬∃ before after, "Sv" = before ++ "$" ++ after := by
    rw [← infix_iff_exists_split]
    decide
  exact ⟨cut, (first_placeholder_taken_out "xababab" "abab").1 _ _ cut,
    (first_placeholder_taken_out "Sv" "").2.1 ⟨"", "Sv", by decide⟩, by decide, absent,
    (first_placeholder_taken_out "Sv" "$").2.2.1 absent⟩

/-! ## The commit scope -/

variable {records : List RuleRecord} {ruleSet : RuleSet}

theorem commitScopeOf_eq_iff (accepted : RuleSet.ofRecords? records = .ok ruleSet)
    (keywords : List String) {scope : String} :
    commitScopeOf (ruleSet.withKeywords keywords) = scope ↔
      FirstNamed records scope ∨ NoneNamed records ∧ scope = "" := by
  rw [commitScopeOf, RuleSet.firstPositiveScope?_withKeywords,
    ← RuleSet.firstPositiveScope?_eq_some_iff accepted,
    ← RuleSet.firstPositiveScope?_eq_none_iff accepted]
  cases ruleSet.firstPositiveScope? with
  | none => simp [eq_comm]
  | some first => simp

/-! ## The identity -/

/-- What comes of the inference, by what the tag format leaves and which scope the records name
first. -/
inductive Inferred (tagFormat? : Option String) (placeholder directoryName : String)
    (records : List RuleRecord) : Except ConfigError Identity → Prop where
  | neither : LacksPrefix tagFormat? placeholder → NoneNamed records →
      Inferred tagFormat? placeholder directoryName records (.error (.unresolved .both "" ""))
  | noPrefix {scope : String} : LacksPrefix tagFormat? placeholder → FirstNamed records scope →
      Inferred tagFormat? placeholder directoryName records
        (.error (.unresolved .tagPrefix "" scope))
  | noScope {tagPrefix : String} : LeavesPrefix tagFormat? placeholder tagPrefix →
      NoneNamed records →
      Inferred tagFormat? placeholder directoryName records
        (.error (.unresolved .commitScope tagPrefix ""))
  | complete {tagPrefix scope name : String} : LeavesPrefix tagFormat? placeholder tagPrefix →
      FirstNamed records scope → name = (if directoryName = "" then scope else directoryName) →
      Inferred tagFormat? placeholder directoryName records
        (.ok ⟨name, Identity.titleOf name, scope, tagPrefix⟩)

theorem exists_inferred (tagFormat? : Option String) (placeholder directoryName : String)
    (records : List RuleRecord) :
    ∃ result, Inferred tagFormat? placeholder directoryName records result := by
  by_cases lacks : LacksPrefix tagFormat? placeholder <;> by_cases none : NoneNamed records
  · exact ⟨_, Inferred.neither lacks none⟩
  · rcases List.exists_firstResult_iff.mpr none with ⟨scope, first⟩
    exact ⟨_, Inferred.noPrefix lacks first⟩
  · exact ⟨_, Inferred.noScope (leavesPrefix_iff.mpr ⟨rfl, lacks⟩) none⟩
  · rcases List.exists_firstResult_iff.mpr none with ⟨scope, first⟩
    exact ⟨_, Inferred.complete (leavesPrefix_iff.mpr ⟨rfl, lacks⟩) first rfl⟩

section Accepted

variable (accepted : RuleSet.ofRecords? records = .ok ruleSet)

include accepted

theorem Inferred.identity_eq {result : Except ConfigError Identity}
    (inferred : Inferred tagFormat? placeholder directoryName records result)
    (keywords : List String) :
    identity ⟨tagFormat?, ruleSet.withKeywords keywords⟩ directoryName placeholder = result := by
  have prefixLeft : ∀ {tagPrefix}, LeavesPrefix tagFormat? placeholder tagPrefix →
      tagPrefixOf tagFormat? placeholder = tagPrefix ∧ tagPrefix ≠ "" := by
    intro tagPrefix leaves
    rcases leavesPrefix_iff.mp leaves with ⟨rfl, notLacks⟩
    exact ⟨rfl, tagPrefixOf_eq_empty_iff.not.mpr notLacks⟩
  have scopeRead : ∀ {scope}, FirstNamed records scope ∨ NoneNamed records ∧ scope = "" →
      commitScopeOf (ruleSet.withKeywords keywords) = scope :=
    (commitScopeOf_eq_iff accepted keywords).mpr
  cases inferred with
  | neither lacks none =>
      simp only [identity, tagPrefixOf_eq_empty_iff.mpr lacks, scopeRead (Or.inr ⟨none, rfl⟩)]
      rfl
  | noPrefix lacks first =>
      simp only [identity, tagPrefixOf_eq_empty_iff.mpr lacks, scopeRead (Or.inl first),
        String.isEmpty_eq_false_iff.mpr first.ne_empty]
      rfl
  | noScope leaves none =>
      rcases prefixLeft leaves with ⟨remains, nonempty⟩
      simp only [identity, remains, scopeRead (Or.inr ⟨none, rfl⟩),
        String.isEmpty_eq_false_iff.mpr nonempty]
      rfl
  | complete leaves first nameEq =>
      rcases prefixLeft leaves with ⟨remains, nonempty⟩
      simp only [identity, remains, scopeRead (Or.inl first), nameEq, String.isEmpty_iff,
        String.isEmpty_eq_false_iff.mpr nonempty, String.isEmpty_eq_false_iff.mpr first.ne_empty]

theorem identity_eq_iff (keywords : List String) {result : Except ConfigError Identity} :
    identity ⟨tagFormat?, ruleSet.withKeywords keywords⟩ directoryName placeholder = result ↔
      Inferred tagFormat? placeholder directoryName records result := by
  constructor
  · rintro rfl
    rcases exists_inferred tagFormat? placeholder directoryName records with ⟨result, inferred⟩
    rwa [inferred.identity_eq accepted keywords]
  · exact fun inferred => inferred.identity_eq accepted keywords

theorem exists_unresolved_iff (keywords : List String) :
    (∃ field tagPrefix scope,
        identity ⟨tagFormat?, ruleSet.withKeywords keywords⟩ directoryName placeholder =
          .error (.unresolved field tagPrefix scope)) ↔
      LacksPrefix tagFormat? placeholder ∨ NoneNamed records := by
  simp only [identity_eq_iff accepted]
  constructor
  · rintro ⟨field, tagPrefix, scope, inferred⟩
    cases inferred with
    | neither lacks none => exact Or.inl lacks
    | noPrefix lacks first => exact Or.inl lacks
    | noScope leaves none => exact Or.inr none
  · intro missing
    rcases exists_inferred tagFormat? placeholder directoryName records with ⟨result, inferred⟩
    cases inferred with
    | neither lacks none => exact ⟨_, _, _, Inferred.neither lacks none⟩
    | noPrefix lacks first => exact ⟨_, _, _, Inferred.noPrefix lacks first⟩
    | noScope leaves none => exact ⟨_, _, _, Inferred.noScope leaves none⟩
    | complete leaves first nameEq =>
        exact absurd missing (not_or.mpr ⟨(leavesPrefix_iff.mp leaves).2, first.not_noneNamed⟩)

end Accepted

/-- The field that an error names says which of the two parts is missing. -/
theorem Inferred.name_field {field : UnresolvedField} {tagPrefix scope : String}
    (inferred : Inferred tagFormat? placeholder directoryName records
      (.error (.unresolved field tagPrefix scope))) :
    (field.name = "tag_prefix" ↔ LacksPrefix tagFormat? placeholder ∧ ¬NoneNamed records) ∧
      (field.name = "commit_scope" ↔ ¬LacksPrefix tagFormat? placeholder ∧ NoneNamed records) ∧
      (field.name = "tag_prefix and commit_scope" ↔
        LacksPrefix tagFormat? placeholder ∧ NoneNamed records) := by
  cases inferred with
  | neither lacks none => simp [UnresolvedField.name, lacks, none]
  | noPrefix lacks first => simp [UnresolvedField.name, lacks, first.not_noneNamed]
  | noScope leaves none => simp [UnresolvedField.name, (leavesPrefix_iff.mp leaves).2, none]

/-- The scope that is inferred is the one that the first record names which names one, or nothing if
none does. The inference fails exactly if no scope is named or the tag format leaves no prefix, which
is to say that it is absent, empty or the placeholder. The error names what is missing and shows what
was found. Otherwise the identity has that scope, the format without the first placeholder for its
prefix, the name of the directory, or the scope if the directory has none, and the title of that
name. -/
theorem inference_is_exact (accepted : RuleSet.ofRecords? records = .ok ruleSet)
    (keywords : List String) (tagFormat? : Option String) (placeholder directoryName : String) :
    let source : LegacySource := ⟨tagFormat?, ruleSet.withKeywords keywords⟩
    (∀ scope, commitScopeOf source.rules = scope ↔
      FirstNamed records scope ∨ NoneNamed records ∧ scope = "") ∧
    (∀ result, source.identity directoryName placeholder = result ↔
      Inferred tagFormat? placeholder directoryName records result) ∧
    ((∃ field tagPrefix scope,
        source.identity directoryName placeholder =
          .error (.unresolved field tagPrefix scope)) ↔
      LacksPrefix tagFormat? placeholder ∨ NoneNamed records) ∧
    ∀ field tagPrefix scope,
      source.identity directoryName placeholder = .error (.unresolved field tagPrefix scope) →
        (field.name = "tag_prefix" ↔ LacksPrefix tagFormat? placeholder ∧ ¬NoneNamed records) ∧
        (field.name = "commit_scope" ↔ ¬LacksPrefix tagFormat? placeholder ∧ NoneNamed records) ∧
        (field.name = "tag_prefix and commit_scope" ↔
          LacksPrefix tagFormat? placeholder ∧ NoneNamed records) := by
  intro source
  refine ⟨?_, ?_, exists_unresolved_iff accepted keywords, ?_⟩
  · exact fun scope => commitScopeOf_eq_iff accepted keywords
  · exact fun result => identity_eq_iff accepted keywords
  · intro field tagPrefix scope failed
    exact ((identity_eq_iff accepted keywords).mp failed).name_field

/-- A blank scope and a negated one are passed over, and the first of two placeholders is taken out.
A format that is the placeholder leaves the prefix missing. -/
theorem inference_is_exact_passed_over :
    let records : List RuleRecord := [⟨some " ", none, none, some (.flag false)⟩,
      ⟨some "!core", none, none, some (.flag false)⟩,
      ⟨some " core\t", none, none, some (.level "minor")⟩]
    let rules : RuleSet := .ofRules [⟨none, none, false, .none⟩,
      ⟨some (.isNot "core"), none, false, .none⟩, ⟨some (.is "core"), none, false, .minor⟩]
    RuleSet.ofRecords? records = .ok rules ∧ FirstNamed records "core" ∧
      Inferred (some "a%b%") "%" "key_vault" records
        (.ok ⟨"key_vault", "Key Vault", "core", "ab%"⟩) ∧
      LacksPrefix (some "%") "%" ∧
      identity ⟨some "%", rules⟩ "" "%" = .error (.unresolved .tagPrefix "" "core") ∧
      UnresolvedField.tagPrefix.name = "tag_prefix" := by
  intro records rules
  have accepted : RuleSet.ofRecords? records = .ok rules := by
    decide
  have inferred : identity ⟨some "a%b%", rules.withKeywords []⟩ "key_vault" "%" =
      .ok ⟨"key_vault", "Key Vault", "core", "ab%"⟩ := by
    decide
  have failed : identity ⟨some "%", rules.withKeywords []⟩ "" "%" =
      .error (.unresolved .tagPrefix "" "core") := by
    decide
  have named := (inference_is_exact accepted [] (some "a%b%") "%" "key_vault")
  have blamed := (inference_is_exact accepted [] (some "%") "%" "").2.2.2 _ _ _ failed
  have first : FirstNamed records "core" := by
    rcases (named.1 "core").mp (by decide) with first | ⟨_, nothing⟩
    · exact first
    · contradiction
  have lacks : LacksPrefix (some "%") "%" := by
    simp [LacksPrefix]
  exact ⟨accepted, first, (named.2.1 _).mp inferred, lacks, failed,
    blamed.1.mpr ⟨lacks, first.not_noneNamed⟩⟩

end LegacySource

end ReleaseAdvisor
