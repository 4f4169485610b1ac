import ReleaseAdvisor.Json.Value

/-!
# Members by their names

What the reader of a record takes from an object. It reads every key and the values under the names
that it knows, so a key without a text or a known value without a meaning refuses the record, and
everything else that stands in the object is of no account. Two objects with readable keys are the
same record if the same documents stand under each known name.
-/

namespace ReleaseAdvisor.Json

/-- The documents that stand under a name, in their order. -/
def Document.named (members : List (List StringPart × Document)) (name : String) : List Document :=
  (members.filter fun member => stringOf? member.1 = some name).map (·.2)

def named (members : List (String × Json)) (name : String) : List Json :=
  (members.filter (·.1 == name)).map (·.2)

def KeysReadable (members : List (List StringPart × Document)) : Prop :=
  ∀ member ∈ members, ∃ name, stringOf? member.1 = some name

theorem member_eq_match_named (members : List (String × Json)) (name : String) :
    member members name =
      match named members name with
      | [] => .missing
      | [value] => .present value
      | _ => .repeated := by
  rw [member, named]
  generalize members.filter (·.1 == name) = found
  rcases found with _ | ⟨first, _ | ⟨second, others⟩⟩ <;> rfl

variable {names : List String} {depth : Nat} {members others : List (List StringPart × Document)}
  {values : List (String × Json)}

/-! ## One member after the other -/

section Cons

variable {key : List StringPart} {item : Document} {own name : String}

theorem Document.named_cons (keyRead : stringOf? key = some own) :
    Document.named ((key, item) :: members) name =
      if own = name then item :: Document.named members name else Document.named members name := by
  rw [named, List.filter_cons]
  simp only [keyRead, Option.some.injEq, decide_eq_true_eq]
  split <;> rfl

theorem named_cons {value : Json} :
    named ((own, value) :: values) name =
      if own = name then value :: named values name else named values name := by
  rw [named, List.filter_cons]
  simp only [beq_iff_eq]
  split <;> rfl

theorem keysReadable_cons_iff :
    KeysReadable ((key, item) :: members) ↔
      (∃ own, stringOf? key = some own) ∧ KeysReadable members :=
  List.forall_mem_cons

theorem ofNamedMembers?_cons_of_mem (keyRead : stringOf? key = some own) (known : own ∈ names) :
    ofNamedMembers? names depth ((key, item) :: members) =
      (ofDocument? depth item).bind fun value =>
        (ofNamedMembers? names depth members).map ((own, value) :: ·) := by
  simp only [ofNamedMembers?, keyRead, known, if_true, Option.bind_eq_bind, Option.bind_some,
    Option.pure_def, Option.map_eq_bind]
  rfl

theorem ofNamedMembers?_cons_of_not_mem (keyRead : stringOf? key = some own)
    (unknown : own ∉ names) :
    ofNamedMembers? names depth ((key, item) :: members) =
      ofNamedMembers? names depth members := by
  simp only [ofNamedMembers?, keyRead, unknown, if_false, Option.bind_eq_bind, Option.bind_some]

theorem ofNamedMembers?_cons_of_unreadable (unreadable : stringOf? key = none) :
    ofNamedMembers? names depth ((key, item) :: members) = none := by
  simp only [ofNamedMembers?, unreadable, Option.bind_eq_bind, Option.bind_none]

/-- What holds of every document under a known name, one member after the other. -/
theorem forall_mem_named_cons_iff (keyRead : stringOf? key = some own) {Holds : Document → Prop} :
    (∀ name ∈ names, ∀ other ∈ Document.named ((key, item) :: members) name, Holds other) ↔
      (own ∈ names → Holds item) ∧
        ∀ name ∈ names, ∀ other ∈ Document.named members name, Holds other := by
  simp only [Document.named_cons keyRead]
  constructor
  · intro all
    constructor
    · intro known
      exact all own known item (by simp)
    · intro name known other otherMem
      apply all name known
      split
      · exact List.mem_cons_of_mem _ otherMem
      · exact otherMem
  · rintro ⟨here, later⟩ name known
    split
    · rename_i isOwn
      exact List.forall_mem_cons.mpr ⟨here (isOwn ▸ known), later name known⟩
    · exact later name known

end Cons

/-! ## What a record is read from -/

theorem map_ofDocument?_named (read : ofNamedMembers? names depth members = some values)
    {name : String} (known : name ∈ names) :
    (Document.named members name).map (ofDocument? depth) = (named values name).map some := by
  induction members generalizing values with
  | nil =>
      cases read
      rfl
  | cons member rest ih =>
      rcases member with ⟨key, item⟩
      cases keyRead : stringOf? key with
      | none => simp [ofNamedMembers?_cons_of_unreadable keyRead] at read
      | some own =>
          rw [Document.named_cons keyRead]
          by_cases ownKnown : own ∈ names
          · rw [ofNamedMembers?_cons_of_mem keyRead ownKnown] at read
            rcases Option.bind_eq_some_iff.mp read with ⟨value, itemRead, restRead⟩
            rcases Option.map_eq_some_iff.mp restRead with ⟨more, moreRead, rfl⟩
            rw [named_cons]
            split
            · rw [List.map_cons, List.map_cons, itemRead, ih moreRead]
            · exact ih moreRead
          · rw [ofNamedMembers?_cons_of_not_mem keyRead ownKnown] at read
            have other : own ≠ name := by
              rintro rfl
              contradiction
            rw [if_neg other]
            exact ih read

theorem exists_ofNamedMembers?_iff :
    (∃ values, ofNamedMembers? names depth members = some values) ↔
      KeysReadable members ∧ ∀ name ∈ names, ∀ item ∈ Document.named members name,
        ∃ value, ofDocument? depth item = some value := by
  induction members with
  | nil => simp [ofNamedMembers?, KeysReadable, Document.named]
  | cons member rest ih =>
      rcases member with ⟨key, item⟩
      cases keyRead : stringOf? key with
      | none =>
          simp [ofNamedMembers?_cons_of_unreadable keyRead, keysReadable_cons_iff, keyRead]
      | some own =>
          rw [keysReadable_cons_iff, forall_mem_named_cons_iff keyRead]
          by_cases ownKnown : own ∈ names
          · rw [ofNamedMembers?_cons_of_mem keyRead ownKnown]
            simp only [keyRead, ownKnown, Option.bind_eq_some_iff, Option.map_eq_some_iff,
              Option.some.injEq, exists_eq', true_and, true_implies]
            rw [and_left_comm, ← ih]
            constructor
            · rintro ⟨_, value, itemRead, more, moreRead, _⟩
              exact ⟨⟨value, itemRead⟩, more, moreRead⟩
            · rintro ⟨⟨value, itemRead⟩, more, moreRead⟩
              exact ⟨_, value, itemRead, more, moreRead, rfl⟩
          · rw [ofNamedMembers?_cons_of_not_mem keyRead ownKnown, ih]
            simp only [keyRead, ownKnown, Option.some.injEq, exists_eq', true_and,
              false_implies]

/-- Objects that agree on the known names are both refused, or they are read alike. -/
theorem ofNamedMembers?_alike (depth : Nat) (readable : KeysReadable members)
    (othersReadable : KeysReadable others)
    (agree : ∀ name ∈ names, Document.named members name = Document.named others name) :
    (ofNamedMembers? names depth members = none ∧ ofNamedMembers? names depth others = none) ∨
      ∃ values more, ofNamedMembers? names depth members = some values ∧
        ofNamedMembers? names depth others = some more ∧
        ∀ name ∈ names, named values name = named more name := by
  by_cases inside : ∀ name ∈ names, ∀ item ∈ Document.named members name,
      ∃ value, ofDocument? depth item = some value
  · have othersInside : ∀ name ∈ names, ∀ item ∈ Document.named others name,
        ∃ value, ofDocument? depth item = some value := by
      intro name known
      rw [← agree name known]
      exact inside name known
    rcases exists_ofNamedMembers?_iff.mpr ⟨readable, inside⟩ with ⟨values, read⟩
    rcases exists_ofNamedMembers?_iff.mpr ⟨othersReadable, othersInside⟩ with ⟨more, moreRead⟩
    refine Or.inr ⟨values, more, read, moreRead, ?_⟩
    intro name known
    have sameItems := map_ofDocument?_named moreRead known
    rw [← agree name known, map_ofDocument?_named read known] at sameItems
    exact (List.map_inj_right fun _ _ => Option.some.inj).mp sameItems
  · left
    constructor
    · refine Option.eq_none_iff_forall_ne_some.mpr ?_
      intro values read
      exact inside (exists_ofNamedMembers?_iff.mp ⟨values, read⟩).2
    · refine Option.eq_none_iff_forall_ne_some.mpr ?_
      intro more moreRead
      apply inside
      intro name known
      rw [agree name known]
      exact (exists_ofNamedMembers?_iff.mp ⟨more, moreRead⟩).2 name known

/-! ## The shape of what is read -/

theorem ofItems?_eq_mapM (items : List Document) :
    ofItems? depth items = items.mapM (ofDocument? depth) := by
  induction items with
  | nil => rfl
  | cons item rest ih => rw [ofItems?, List.mapM_cons, ih]

theorem ofDocument?_array (items : List Document) :
    ofDocument? (depth + 1) (.array items) = (items.mapM (ofDocument? depth)).map .array := by
  rw [ofDocument?, ofItems?_eq_mapM]

end ReleaseAdvisor.Json
