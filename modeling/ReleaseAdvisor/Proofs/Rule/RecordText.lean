import ReleaseAdvisor.Proofs.Json.Limits
import ReleaseAdvisor.Proofs.Json.Members
import ReleaseAdvisor.Proofs.Result
import ReleaseAdvisor.Rule.Decode

/-!
# Rule records as texts

A list of records that is written out is read back as it was, whatever its strings hold and
whichever fields are there. The writer leaves out a scope, a type and a breaking flag that are not
there, but puts a missing release down as `null`. The reader makes no difference between the two: a
field stands in a record once or not at all, and a `null` is not there. So what matters of a record
is what stands under its four names. Where the members stand, which others there are, and whether a
missing field is left out or `null` can be different in a text that is read as the same records.
-/

namespace ReleaseAdvisor

/-! ## Members of an object that was written -/

namespace Json

theorem keysReadable_ofMembers (members : List (String × Json)) :
    KeysReadable (Document.ofMembers members) := by
  induction members with
  | nil => exact List.forall_mem_nil _
  | cons member rest ih => exact keysReadable_cons_iff.mpr ⟨⟨_, stringOf?_written _⟩, ih⟩

theorem named_ofMembers (members : List (String × Json)) (name : String) :
    Document.named (Document.ofMembers members) name =
      (named members name).map Document.ofJson := by
  induction members with
  | nil => rfl
  | cons member rest ih =>
      rw [Document.ofMembers, Document.named_cons (stringOf?_written _), named_cons, ih]
      split <;> rfl

theorem named_append (front back : List (String × Json)) (name : String) :
    named (front ++ back) name = named front name ++ named back name := by
  simp [named]

end Json

namespace RuleRecord

open Json (Document)

/-- The array that a list of records is written as. -/
def listToJson (records : List RuleRecord) : Json :=
  .array (records.map toJson)

/-! ## What is written -/

/-- How a field may stand in a record. One that is not there may be left out, or be `null`. -/
inductive FieldWritten : List Document → Json → Prop where
  | missing : FieldWritten [] .null
  | present {document : Document} {value : Json} :
      document.value? = some value → FieldWritten [document] value

/-- A record whose fields stand in these documents. -/
structure Stated (record : RuleRecord) (scope type breaking release : List Document) : Prop where
  scope : FieldWritten scope (record.scope?.elim .null .string)
  type : FieldWritten type (record.type?.elim .null .string)
  breaking : FieldWritten breaking (record.breaking?.elim .null .bool)
  release : FieldWritten release (releaseJson record.release?)

/-- A record as it may stand in a list: an object, or an array of its fields in order. -/
inductive WrittenAs (record : RuleRecord) : Document → Prop where
  | object {members : List (List Json.StringPart × Document)} : Json.KeysReadable members →
      record.Stated (Document.named members "scope") (Document.named members "type")
        (Document.named members "breaking") (Document.named members "release") →
      WrittenAs record (.object members)
  | list {items : List Document} : items.length ≤ 4 →
      record.Stated items[0]?.toList items[1]?.toList items[2]?.toList items[3]?.toList →
      WrittenAs record (.array items)

/-! ## One field -/

theorem fieldWritten_nil_iff {json : Json} : FieldWritten [] json ↔ json = .null := by
  constructor
  · rintro ⟨⟩
    rfl
  · rintro rfl
    exact FieldWritten.missing

theorem fieldWritten_singleton_iff {document : Document} {json : Json} :
    FieldWritten [document] json ↔ document.value? = some json := by
  constructor
  · rintro ⟨⟩
    assumption
  · exact FieldWritten.present

theorem text?_ofJson_eq_some_iff {json : Json} {text? : Option String} :
    (FieldValue.ofJson json).text? = some text? ↔ json = text?.elim .null .string := by
  cases json <;> cases text? <;> simp [FieldValue.ofJson, FieldValue.text?, eq_comm]

theorem flag?_ofJson_eq_some_iff {json : Json} {flag? : Option Bool} :
    (FieldValue.ofJson json).flag? = some flag? ↔ json = flag?.elim .null .bool := by
  cases json <;> cases flag? <;> simp [FieldValue.ofJson, FieldValue.flag?, eq_comm]

theorem release?_ofJson_eq_some_iff {json : Json} {release? : Option ReleaseValue} :
    (FieldValue.ofJson json).release? = some release? ↔ json = releaseJson release? := by
  rcases release? with _ | _ | _ <;> cases json <;>
    simp [FieldValue.ofJson, FieldValue.release?, releaseJson, eq_comm]

/-- What a reader finds where the documents of a field stand. -/
def fieldOf? (depth : Nat) : List Document → Option FieldValue
  | [] => some .missing
  | [document] => (Json.ofDocument? depth document).map .ofJson
  | _ => none

theorem within_text (depth : Nat) (text? : Option String) :
    Json.Within depth (text?.elim .null .string) := by
  cases text? with
  | none => exact Json.Within.null
  | some text => exact Json.Within.string

theorem within_flag (depth : Nat) (flag? : Option Bool) :
    Json.Within depth (flag?.elim .null .bool) := by
  cases flag? with
  | none => exact Json.Within.null
  | some flag => exact Json.Within.bool

theorem within_release (depth : Nat) (release? : Option ReleaseValue) :
    Json.Within depth (releaseJson release?) := by
  rcases release? with _ | name | flag
  · exact Json.Within.null
  · exact Json.Within.string
  · exact Json.Within.bool

section Field

variable {depth : Nat} {documents : List Document}

theorem exists_fieldOf?_iff {α : Type} {read? : FieldValue → Option α} {write : α → Json}
    (undoes : ∀ json value, read? (.ofJson json) = some value ↔ json = write value)
    (within : ∀ value, Json.Within depth (write value)) {value : α} :
    (∃ field, fieldOf? depth documents = some field ∧ read? field = some value) ↔
      FieldWritten documents (write value) := by
  rcases documents with _ | ⟨document, _ | ⟨second, others⟩⟩
  · have missing := undoes .null value
    rw [fieldWritten_nil_iff, eq_comm, ← missing]
    simp [fieldOf?, FieldValue.ofJson]
  · simp only [fieldOf?, Option.map_eq_some_iff, Json.ofDocument?_eq_some_iff,
      fieldWritten_singleton_iff]
    constructor
    · rintro ⟨_, ⟨json, ⟨documentRead, _⟩, rfl⟩, isValue⟩
      exact (undoes json value).mp isValue ▸ documentRead
    · intro documentRead
      exact ⟨_, ⟨_, ⟨documentRead, within value⟩, rfl⟩, (undoes _ value).mpr rfl⟩
  · constructor
    · rintro ⟨field, read, _⟩
      contradiction
    · rintro ⟨⟩

theorem exists_text?_iff {text? : Option String} :
    (∃ field, fieldOf? depth documents = some field ∧ field.text? = some text?) ↔
      FieldWritten documents (text?.elim .null .string) :=
  exists_fieldOf?_iff (fun _ _ => text?_ofJson_eq_some_iff) (within_text depth)

theorem exists_flag?_iff {flag? : Option Bool} :
    (∃ field, fieldOf? depth documents = some field ∧ field.flag? = some flag?) ↔
      FieldWritten documents (flag?.elim .null .bool) :=
  exists_fieldOf?_iff (fun _ _ => flag?_ofJson_eq_some_iff) (within_flag depth)

theorem exists_release?_iff {release? : Option ReleaseValue} :
    (∃ field, fieldOf? depth documents = some field ∧ field.release? = some release?) ↔
      FieldWritten documents (releaseJson release?) :=
  exists_fieldOf?_iff (fun _ _ => release?_ofJson_eq_some_iff) (within_release depth)

theorem FieldWritten.readable {json : Json} (written : FieldWritten documents json)
    (within : Json.Within depth json) :
    ∀ document ∈ documents, ∃ value, Json.ofDocument? depth document = some value := by
  cases written with
  | missing => exact List.forall_mem_nil _
  | @present document value read =>
      refine List.forall_mem_singleton.mpr ⟨json, ?_⟩
      exact (Json.ofDocument?_eq_some_iff document depth json).mpr ⟨read, within⟩

end Field

/-! ## The fields of a record -/

theorem ofFields?_eq_some_iff {scope type breaking release : FieldValue} {record : RuleRecord} :
    ofFields? scope type breaking release = some record ↔
      scope.text? = some record.scope? ∧ type.text? = some record.type? ∧
        breaking.flag? = some record.breaking? ∧ release.release? = some record.release? := by
  rcases record with ⟨scope?, type?, breaking?, release?⟩
  simp only [ofFields?, Option.bind_eq_bind, Option.bind_eq_some_iff, Option.pure_def,
    Option.some.injEq, mk.injEq]
  constructor
  · rintro ⟨_, scopeRead, _, typeRead, _, breakingRead, _, releaseRead, rfl, rfl, rfl, rfl⟩
    exact ⟨scopeRead, typeRead, breakingRead, releaseRead⟩
  · rintro ⟨scopeRead, typeRead, breakingRead, releaseRead⟩
    exact ⟨_, scopeRead, _, typeRead, _, breakingRead, _, releaseRead, rfl, rfl, rfl, rfl⟩

/-- A record read from the documents in which its fields stand. -/
def ofStated? (depth : Nat) (scope type breaking release : List Document) : Option RuleRecord := do
  ofFields? (← fieldOf? depth scope) (← fieldOf? depth type) (← fieldOf? depth breaking)
    (← fieldOf? depth release)

section Stated

variable {depth : Nat} {scope type breaking release : List Document} {record : RuleRecord}

theorem ofStated?_eq_some_iff :
    ofStated? depth scope type breaking release = some record ↔
      record.Stated scope type breaking release := by
  simp only [ofStated?, Option.bind_eq_bind, Option.bind_eq_some_iff, ofFields?_eq_some_iff]
  constructor
  · rintro ⟨scopeField, scopeRead, typeField, typeRead, breakingField, breakingRead, releaseField,
      releaseRead, isScope, isType, isBreaking, isRelease⟩
    constructor
    · exact exists_text?_iff.mp ⟨scopeField, scopeRead, isScope⟩
    · exact exists_text?_iff.mp ⟨typeField, typeRead, isType⟩
    · exact exists_flag?_iff.mp ⟨breakingField, breakingRead, isBreaking⟩
    · exact exists_release?_iff.mp ⟨releaseField, releaseRead, isRelease⟩
  · rintro ⟨scopeWritten, typeWritten, breakingWritten, releaseWritten⟩
    rcases exists_text?_iff.mpr scopeWritten with ⟨scopeField, scopeRead, isScope⟩
    rcases exists_text?_iff.mpr typeWritten with ⟨typeField, typeRead, isType⟩
    rcases exists_flag?_iff.mpr breakingWritten with ⟨breakingField, breakingRead, isBreaking⟩
    rcases exists_release?_iff.mpr releaseWritten with ⟨releaseField, releaseRead, isRelease⟩
    exact ⟨scopeField, scopeRead, typeField, typeRead, breakingField, breakingRead, releaseField,
      releaseRead, isScope, isType, isBreaking, isRelease⟩

theorem Stated.readable (stated : record.Stated scope type breaking release) :
    ∀ documents ∈ [scope, type, breaking, release], ∀ document ∈ documents,
      ∃ value, Json.ofDocument? depth document = some value := by
  simp only [List.mem_cons, List.not_mem_nil, or_false, forall_eq_or_imp, forall_eq]
  exact ⟨stated.scope.readable (within_text _ _), stated.type.readable (within_text _ _),
    stated.breaking.readable (within_flag _ _), stated.release.readable (within_release _ _)⟩

end Stated

/-! ## One record -/

/-- An item of a list as a record. Of an object only the fields of a record are read. -/
def ofItem? (depth : Nat) (item : Document) : Option RuleRecord :=
  (Json.ofRecord? fieldNames depth item).bind ofJson?

section Object

variable {depth : Nat} {members : List (List Json.StringPart × Document)}

theorem ofMember?_of_read {values : List (String × Json)}
    (read : Json.ofNamedMembers? fieldNames depth members = some values) {name : String}
    (known : name ∈ fieldNames) :
    FieldValue.ofMember? (Json.member values name) =
      fieldOf? depth (Document.named members name) := by
  have sameItems := Json.map_ofDocument?_named read known
  rw [Json.member_eq_match_named]
  generalize Document.named members name = documents at sameItems
  generalize Json.named values name = found at sameItems
  rcases documents with _ | ⟨document, _ | ⟨second, others⟩⟩ <;>
    rcases found with _ | ⟨value, _ | ⟨other, more⟩⟩ <;>
    simp_all [fieldOf?, FieldValue.ofMember?]

theorem ofItem?_object_of_read {values : List (String × Json)}
    (read : Json.ofNamedMembers? fieldNames depth members = some values) :
    ofItem? (depth + 1) (.object members) =
      ofStated? depth (Document.named members "scope") (Document.named members "type")
        (Document.named members "breaking") (Document.named members "release") := by
  have field : ∀ name ∈ fieldNames, FieldValue.ofMember? (Json.member values name) =
      fieldOf? depth (Document.named members name) := fun _ => ofMember?_of_read read
  simp only [fieldNames, List.mem_cons, List.not_mem_nil, or_false, forall_eq_or_imp,
    forall_eq] at field
  simp only [ofItem?, Json.ofRecord?, read, Option.map_some, Option.bind_some, ofJson?, ofStated?,
    field]

theorem ofItem?_object_eq_some_iff {record : RuleRecord} :
    ofItem? (depth + 1) (.object members) = some record ↔
      record.WrittenAs (.object members) := by
  constructor
  · intro itemRead
    cases read : Json.ofNamedMembers? fieldNames depth members with
    | none => simp [ofItem?, Json.ofRecord?, read] at itemRead
    | some values =>
        rw [ofItem?_object_of_read read, ofStated?_eq_some_iff] at itemRead
        exact WrittenAs.object (Json.exists_ofNamedMembers?_iff.mp ⟨values, read⟩).1 itemRead
  · rintro ⟨keys, stated⟩
    have readable : ∀ name ∈ fieldNames, ∀ document ∈ Document.named members name,
        ∃ value, Json.ofDocument? depth document = some value := by
      simpa [fieldNames] using stated.readable
    rcases Json.exists_ofNamedMembers?_iff.mpr ⟨keys, readable⟩ with ⟨values, read⟩
    rw [ofItem?_object_of_read read, ofStated?_eq_some_iff]
    exact stated

end Object

section Items

variable {depth : Nat} {items : List Document}

theorem ofList?_eq (fields : List FieldValue) :
    ofList? fields =
      if fields.length ≤ 4 then
        ofFields? (fields[0]?.getD .missing) (fields[1]?.getD .missing)
          (fields[2]?.getD .missing) (fields[3]?.getD .missing)
      else none := by
  rcases fields with _ | ⟨_, _ | ⟨_, _ | ⟨_, _ | ⟨_, _ | ⟨_, _⟩⟩⟩⟩⟩ <;> simp [ofList?]

theorem fieldOf?_getElem? {values : List Json}
    (read : items.mapM (Json.ofDocument? depth) = some values) (place : Nat) :
    fieldOf? depth items[place]?.toList =
      some ((values.map FieldValue.ofJson)[place]?.getD .missing) := by
  have samePlace := congrArg (·[place]?) (List.mapM_eq_some_iff.mp read)
  simp only [List.getElem?_map] at samePlace ⊢
  cases isItem : items[place]? <;> cases isValue : values[place]? <;>
    simp_all [fieldOf?]

theorem length_eq_of_read {values : List Json}
    (read : items.mapM (Json.ofDocument? depth) = some values) : values.length = items.length := by
  simpa using (congrArg List.length (List.mapM_eq_some_iff.mp read)).symm

theorem ofItem?_array_of_read {values : List Json}
    (read : items.mapM (Json.ofDocument? depth) = some values) :
    ofItem? (depth + 1) (.array items) =
      if items.length ≤ 4 then
        ofStated? depth items[0]?.toList items[1]?.toList items[2]?.toList items[3]?.toList
      else none := by
  have array : Json.ofRecord? fieldNames (depth + 1) (.array items) = some (.array values) := by
    rw [Json.ofRecord?, Json.ofDocument?_array, read, Option.map_some]
    simp
  simp only [ofItem?, array, Option.bind_some, ofJson?, ofList?_eq, List.length_map,
    length_eq_of_read read, ofStated?, fieldOf?_getElem? read, Option.bind_eq_bind]

/-- All items of an array of fields stand in one of the four places. -/
theorem Stated.exists_values {record : RuleRecord} (short : items.length ≤ 4)
    (stated : record.Stated items[0]?.toList items[1]?.toList items[2]?.toList items[3]?.toList) :
    ∃ values, items.mapM (Json.ofDocument? depth) = some values := by
  have readable : ∀ item ∈ items, ∃ value, Json.ofDocument? depth item = some value := by
    intro item itemMem
    rcases List.mem_iff_getElem?.mp itemMem with ⟨place, isItem⟩
    have inside : place < items.length := (List.getElem?_eq_some_iff.mp isItem).1
    have isPlace : items[place]?.toList ∈ (List.range 4).map fun place => items[place]?.toList :=
      List.mem_map_of_mem (List.mem_range.mpr (by omega))
    exact stated.readable _ isPlace item (by simp [isItem])
  rcases List.exists_forall₂_iff.mpr readable with ⟨values, read⟩
  exact ⟨values, (List.mapM_eq_some_iff_forall₂ fun _ _ => Iff.rfl).mpr read⟩

theorem ofItem?_array_eq_some_iff {record : RuleRecord} :
    ofItem? (depth + 1) (.array items) = some record ↔ record.WrittenAs (.array items) := by
  constructor
  · intro itemRead
    cases read : items.mapM (Json.ofDocument? depth) with
    | none => simp [ofItem?, Json.ofRecord?, Json.ofDocument?_array, read] at itemRead
    | some values =>
        rw [ofItem?_array_of_read read, Option.ite_none_right_eq_some,
          ofStated?_eq_some_iff] at itemRead
        exact WrittenAs.list itemRead.1 itemRead.2
  · rintro (_ | ⟨short, stated⟩)
    rcases stated.exists_values short with ⟨values, read⟩
    rw [ofItem?_array_of_read read, if_pos short, ofStated?_eq_some_iff]
    exact stated

end Items

/-- A document that is no container is no record, whatever it is read as. -/
theorem isContainer_of_ofItem? {depth : Nat} {item : Document} {record : RuleRecord}
    (read : ofItem? depth item = some record) :
    (∃ items, item = .array items) ∨ ∃ members, item = .object members := by
  rcases Option.bind_eq_some_iff.mp read with ⟨value, valueRead, isRecord⟩
  cases item with
  | array items => exact Or.inl ⟨items, rfl⟩
  | object members => exact Or.inr ⟨members, rfl⟩
  | null =>
      cases valueRead
      contradiction
  | bool truth =>
      cases valueRead
      contradiction
  | number written =>
      rcases Option.ite_none_right_eq_some.mp valueRead with ⟨_, isNumber⟩
      cases isNumber
      contradiction
  | string parts =>
      rcases Option.map_eq_some_iff.mp valueRead with ⟨text, _, rfl⟩
      contradiction

theorem ofItem?_eq_some_iff {depth : Nat} {item : Document} {record : RuleRecord} :
    ofItem? (depth + 1) item = some record ↔ record.WrittenAs item := by
  constructor
  · intro read
    rcases isContainer_of_ofItem? read with ⟨items, rfl⟩ | ⟨members, rfl⟩
    · exact ofItem?_array_eq_some_iff.mp read
    · exact ofItem?_object_eq_some_iff.mp read
  · intro written
    cases item with
    | array items => exact ofItem?_array_eq_some_iff.mpr written
    | object members => exact ofItem?_object_eq_some_iff.mpr written
    | null => cases written
    | bool truth => cases written
    | number value => cases written
    | string parts => cases written

/-! ## Lists of records -/

theorem listOfText?_eq_some_iff {text : String} {records : List RuleRecord} :
    listOfText? text = some records ↔
      ∃ items, Document.read? text = some (.array items) ∧
        List.Forall₂ WrittenAs records items := by
  have itemsRead : ∀ items : List Document,
      items.mapM (ofItem? (Json.maxDepth - 1)) = some records ↔
        List.Forall₂ WrittenAs records items := by
    intro items
    have read : items.mapM (ofItem? (Json.maxDepth - 1)) = some records ↔
        List.Forall₂ (flip WrittenAs) items records :=
      List.mapM_eq_some_iff_forall₂ fun _ _ => ofItem?_eq_some_iff
    exact read.trans ⟨List.Forall₂.flip, List.Forall₂.flip⟩
  rw [listOfText?, Option.bind_eq_bind, Option.bind_eq_some_iff]
  constructor
  · rintro ⟨document, isDocument, read⟩
    split at read
    · rename_i items
      exact ⟨items, isDocument, (itemsRead items).mp read⟩
    · contradiction
  · rintro ⟨items, isArray, written⟩
    exact ⟨_, isArray, (itemsRead items).mpr written⟩

/-! ## What the writer leaves -/

theorem named_optionalMember (own : String) (value? : Option Json) (name : String) :
    Json.named (optionalMember own value?) name = if own = name then value?.toList else [] := by
  cases value? with
  | none => simp [optionalMember, Json.named]
  | some value => exact Json.named_cons

theorem fieldWritten_optional {α : Type} (write : α → Json) (value? : Option α) :
    FieldWritten ((value?.map write).toList.map Document.ofJson) (value?.elim .null write) := by
  cases value? with
  | none => exact FieldWritten.missing
  | some value => exact FieldWritten.present (Document.value?_ofJson (write value))

theorem writtenAs_toJson (record : RuleRecord) :
    record.WrittenAs (Document.ofJson record.toJson) := by
  refine WrittenAs.object (Json.keysReadable_ofMembers _) ?_
  simp only [Json.named_ofMembers, Json.named_append, named_optionalMember, Json.named_cons]
  constructor
  · simpa [Json.named] using fieldWritten_optional .string record.scope?
  · simpa [Json.named] using fieldWritten_optional .string record.type?
  · simpa [Json.named] using fieldWritten_optional .bool record.breaking?
  · simpa [Json.named] using FieldWritten.present (Document.value?_ofJson _)

theorem forall₂_writtenAs (records : List RuleRecord) :
    List.Forall₂ WrittenAs records (Document.ofItems (records.map toJson)) := by
  induction records with
  | nil => exact List.Forall₂.nil
  | cons record rest ih => exact List.Forall₂.cons record.writtenAs_toJson ih

theorem listOfText?_of_spells {text : String} {records : List RuleRecord}
    (spelled : Json.Lexer.Spells text.toList (Document.ofJson (listToJson records)).tokens) :
    listOfText? text = some records :=
  listOfText?_eq_some_iff.mpr ⟨_, Json.Document.read?_of_spells spelled, forall₂_writtenAs records⟩

theorem listOfText?_toLine (records : List RuleRecord) :
    listOfText? (listToJson records).toLine = some records :=
  listOfText?_of_spells (Json.spells_toLine _)

theorem listOfText?_toText (records : List RuleRecord) :
    listOfText? (listToJson records).toText = some records :=
  listOfText?_of_spells (Json.spells_toText _)

end RuleRecord

/-- The rule set of a text that is a list of records, or what is wrong with the records. -/
def RuleSet.ofText? (text : String) : Option (Except RecordError RuleSet) :=
  (RuleRecord.listOfText? text).map ofRecords?

/-- A list of records is read back from its text, in either layout. A text is read as some records
exactly if it is an array in which they stand one by one, each as an array of its fields or as an
object that has them in any order, among members with other names, with `null` for nothing if it
likes. Such a text and the one that its records are written as give the same records, and so the
same rule set or the same fault. -/
theorem RuleRecord.records_survive_rewriting :
    (∀ records : List RuleRecord,
      listOfText? (listToJson records).toLine = some records ∧
        listOfText? (listToJson records).toText = some records) ∧
    (∀ (text : String) (records : List RuleRecord),
      listOfText? text = some records ↔
        ∃ items, Json.Document.read? text = some (.array items) ∧
          List.Forall₂ WrittenAs records items) ∧
    (∀ (text : String) (records : List RuleRecord), listOfText? text = some records →
      ∀ rewritten ∈ [(listToJson records).toLine, (listToJson records).toText],
        listOfText? rewritten = listOfText? text ∧
          RuleSet.ofText? rewritten = RuleSet.ofText? text) := by
  refine ⟨?_, fun _ _ => listOfText?_eq_some_iff, ?_⟩
  · intro records
    exact ⟨listOfText?_toLine records, listOfText?_toText records⟩
  · intro text records read rewritten isRewritten
    have sameRecords : listOfText? rewritten = listOfText? text := by
      simp only [List.mem_cons, List.not_mem_nil, or_false] at isRewritten
      rcases isRewritten with rfl | rfl
      · exact (listOfText?_toLine records).trans read.symm
      · exact (listOfText?_toText records).trans read.symm
    refine ⟨sameRecords, ?_⟩
    rw [RuleSet.ofText?, sameRecords]
    rfl

/-- The first record is an array of three fields. The second has its members in another order, a
`null` for its type, and one member more, which no reader of values would take. -/
theorem RuleRecord.records_survive_rewriting_reordered :
    let text := "[[null, \"fix\", true],\n \x7b\"release\": false, \"x\": [1e999, \"\\ud800\"], " ++
      "\"type\": null, \"scope\": \"!\\u0041\"\x7d]"
    let records : List RuleRecord :=
      [⟨none, some "fix", some true, none⟩, ⟨some "!A", none, none, some (.flag false)⟩]
    let rewritten := (listToJson records).toLine
    listOfText? text = some records ∧
      rewritten ∈ [(listToJson records).toLine, (listToJson records).toText] ∧
      listOfText? rewritten = some records ∧
      RuleSet.ofText? rewritten = some (.error ⟨0, .missingRelease⟩) := by
  intro text records rewritten
  have read : listOfText? text = some records := by
    decide +kernel
  have isRewritten : rewritten ∈ [(listToJson records).toLine, (listToJson records).toText] :=
    List.mem_cons_self
  have survives := records_survive_rewriting.2.2 text records read rewritten isRewritten
  have fault : RuleSet.ofText? text = some (.error ⟨0, .missingRelease⟩) := by
    rw [RuleSet.ofText?, read]
    rfl
  exact ⟨read, isRewritten, survives.1.trans read, survives.2.trans fault⟩

end ReleaseAdvisor
