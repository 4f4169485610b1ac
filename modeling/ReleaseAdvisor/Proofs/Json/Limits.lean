import ReleaseAdvisor.Proofs.Json.RoundTrip

/-!
# The limits of the reader

The reader of values refuses deep nesting and numbers out of range. These are its only limits: it
reads a text as a value exactly if `Json.read?` does and the value is within them. So what is known
of texts without the limits carries over to every value that is small enough.
-/

namespace ReleaseAdvisor.Json

/-- A value that nests no deeper than a limit and whose numbers are all finite. -/
inductive Within : Nat → Json → Prop where
  | null {depth : Nat} : Within depth .null
  | bool {depth : Nat} {value : Bool} : Within depth (.bool value)
  | number {depth : Nat} {value : Number} : value.isFinite = true → Within depth (.number value)
  | string {depth : Nat} {text : String} : Within depth (.string text)
  | array {depth : Nat} {items : List Json} :
      (∀ item ∈ items, Within depth item) → Within (depth + 1) (.array items)
  | object {depth : Nat} {members : List (String × Json)} :
      (∀ member ∈ members, Within depth member.2) → Within (depth + 1) (.object members)

theorem within_array_iff {depth : Nat} {items : List Json} :
    Within (depth + 1) (.array items) ↔ ∀ item ∈ items, Within depth item := by
  constructor
  · rintro ⟨⟩
    assumption
  · exact Within.array

theorem within_object_iff {depth : Nat} {members : List (String × Json)} :
    Within (depth + 1) (.object members) ↔ ∀ member ∈ members, Within depth member.2 := by
  constructor
  · rintro ⟨⟩
    assumption
  · exact Within.object

mutual

theorem ofDocument?_eq_some_iff : ∀ (document : Document) (depth : Nat) (value : Json),
    ofDocument? depth document = some value ↔
      document.value? = some value ∧ Within depth value
  | .null, depth, value => by
      constructor
      · rintro ⟨⟩
        exact ⟨rfl, Within.null⟩
      · exact And.left
  | .bool truth, depth, value => by
      constructor
      · rintro ⟨⟩
        exact ⟨rfl, Within.bool⟩
      · exact And.left
  | .number written, depth, value => by
      rw [ofDocument?, Document.value?]
      constructor
      · intro read
        split at read
        · rename_i isFinite
          cases read
          exact ⟨rfl, Within.number isFinite⟩
        · contradiction
      · rintro ⟨⟨⟩, within⟩
        cases within with
        | number isFinite => rw [if_pos isFinite]
  | .string parts, depth, value => by
      rw [ofDocument?, Document.value?]
      constructor
      · intro read
        rcases Option.map_eq_some_iff.mp read with ⟨text, _, rfl⟩
        exact ⟨read, Within.string⟩
      · exact And.left
  | .array items, 0, value => by
      rw [ofDocument?, Document.value?]
      constructor
      · intro read
        contradiction
      · rintro ⟨read, within⟩
        rcases Option.map_eq_some_iff.mp read with ⟨values, _, rfl⟩
        cases within
  | .array items, depth + 1, value => by
      simp only [ofDocument?, Document.value?, Option.map_eq_some_iff]
      constructor
      · rintro ⟨values, valuesRead, rfl⟩
        have read := (ofItems?_eq_some_iff items depth values).mp valuesRead
        exact ⟨⟨values, read.1, rfl⟩, Within.array read.2⟩
      · rintro ⟨⟨values, valuesRead, rfl⟩, within⟩
        have read := (ofItems?_eq_some_iff items depth values).mpr
          ⟨valuesRead, within_array_iff.mp within⟩
        exact ⟨values, read, rfl⟩
  | .object members, 0, value => by
      rw [ofDocument?, Document.value?]
      constructor
      · intro read
        contradiction
      · rintro ⟨read, within⟩
        rcases Option.map_eq_some_iff.mp read with ⟨values, _, rfl⟩
        cases within
  | .object members, depth + 1, value => by
      simp only [ofDocument?, Document.value?, Option.map_eq_some_iff]
      constructor
      · rintro ⟨values, valuesRead, rfl⟩
        have read := (ofMembers?_eq_some_iff members depth values).mp valuesRead
        exact ⟨⟨values, read.1, rfl⟩, Within.object read.2⟩
      · rintro ⟨⟨values, valuesRead, rfl⟩, within⟩
        have read := (ofMembers?_eq_some_iff members depth values).mpr
          ⟨valuesRead, within_object_iff.mp within⟩
        exact ⟨values, read, rfl⟩

theorem ofItems?_eq_some_iff : ∀ (items : List Document) (depth : Nat) (values : List Json),
    ofItems? depth items = some values ↔
      Document.itemValues? items = some values ∧ ∀ value ∈ values, Within depth value
  | [], depth, values => by
      constructor
      · rintro ⟨⟩
        exact ⟨rfl, List.forall_mem_nil _⟩
      · exact And.left
  | item :: rest, depth, values => by
      have first := ofDocument?_eq_some_iff item depth
      have others := ofItems?_eq_some_iff rest depth
      simp only [ofItems?, Document.itemValues?, Option.bind_eq_bind, Option.bind_eq_some_iff,
        Option.pure_def, Option.some.injEq, first, others]
      constructor
      · rintro ⟨value, ⟨valueRead, within⟩, more, ⟨moreRead, moreWithin⟩, rfl⟩
        exact ⟨⟨value, valueRead, more, moreRead, rfl⟩,
          List.forall_mem_cons.mpr ⟨within, moreWithin⟩⟩
      · rintro ⟨⟨value, valueRead, more, moreRead, rfl⟩, allWithin⟩
        rcases List.forall_mem_cons.mp allWithin with ⟨within, moreWithin⟩
        exact ⟨value, ⟨valueRead, within⟩, more, ⟨moreRead, moreWithin⟩, rfl⟩

theorem ofMembers?_eq_some_iff : ∀ (members : List (List StringPart × Document)) (depth : Nat)
    (values : List (String × Json)),
    ofMembers? depth members = some values ↔
      Document.memberValues? members = some values ∧ ∀ value ∈ values, Within depth value.2
  | [], depth, values => by
      constructor
      · rintro ⟨⟩
        exact ⟨rfl, List.forall_mem_nil _⟩
      · exact And.left
  | (key, item) :: rest, depth, values => by
      have first := ofDocument?_eq_some_iff item depth
      have others := ofMembers?_eq_some_iff rest depth
      simp only [ofMembers?, Document.memberValues?, Option.bind_eq_bind, Option.bind_eq_some_iff,
        Option.pure_def, Option.some.injEq, first, others]
      constructor
      · rintro ⟨name, nameRead, value, ⟨valueRead, within⟩, more, ⟨moreRead, moreWithin⟩, rfl⟩
        exact ⟨⟨name, nameRead, value, valueRead, more, moreRead, rfl⟩,
          List.forall_mem_cons.mpr ⟨within, moreWithin⟩⟩
      · rintro ⟨⟨name, nameRead, value, valueRead, more, moreRead, rfl⟩, allWithin⟩
        rcases List.forall_mem_cons.mp allWithin with ⟨within, moreWithin⟩
        exact ⟨name, nameRead, value, ⟨valueRead, within⟩, more, ⟨moreRead, moreWithin⟩, rfl⟩

end

theorem parse?_eq_some_iff {text : String} {value : Json} :
    parse? text = some value ↔ read? text = some value ∧ Within maxDepth value := by
  rw [parse?, read?]
  cases Document.read? text with
  | none => simp
  | some document => exact ofDocument?_eq_some_iff document maxDepth value

end ReleaseAdvisor.Json
