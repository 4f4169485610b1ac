import ReleaseAdvisor.Proofs.Json.Spelling

/-!
# Written values are read back

Both layouts of a value are read back as that value. The argument follows the three readers. A
layout spells the tokens of the value's document, and spaces and line feeds between them are not
seen. The reader of documents takes the tokens of a document, wherever it stands, as one item that
it gives to the container around it. The text of a string is the text that was written: a control
that became a `\u` escape is no half of a pair.

`Json.read?` reads without limits on depth and numbers, so that a value is read back whatever it
holds.
-/

namespace ReleaseAdvisor.Json

open Lexer

/-! ## From values to tokens -/

namespace Document

mutual

/-- The document that a value is written as. -/
def ofJson : Json → Document
  | .null => .null
  | .bool value => .bool value
  | .number value => .number value
  | .string text => .string (text.toList.map .written)
  | .array items => .array (ofItems items)
  | .object members => .object (ofMembers members)

def ofItems : List Json → List Document
  | [] => []
  | item :: rest => ofJson item :: ofItems rest

def ofMembers : List (String × Json) → List (List StringPart × Document)
  | [] => []
  | (name, value) :: rest => (name.toList.map .written, ofJson value) :: ofMembers rest

end

mutual

/-- The tokens of a document. -/
def tokens : Document → List Token
  | .null => [.null]
  | .bool value => [.bool value]
  | .number value => [.number value]
  | .string parts => [.string parts]
  | .array items => .openArray :: (itemTokens items ++ [.closeArray])
  | .object members => .openObject :: (memberTokens members ++ [.closeObject])

def itemTokens : List Document → List Token
  | [] => []
  | [item] => tokens item
  | item :: rest => tokens item ++ .comma :: itemTokens rest

def memberTokens : List (List StringPart × Document) → List Token
  | [] => []
  | [(key, value)] => .string key :: .colon :: tokens value
  | (key, value) :: rest => .string key :: .colon :: (tokens value ++ .comma :: memberTokens rest)

end

end Document

theorem openArray_starts : step .between '[' = some (.between, [.openArray]) := rfl

theorem closeArray_starts : step .between ']' = some (.between, [.closeArray]) := rfl

theorem openObject_starts : step .between '{' = some (.between, [.openObject]) := rfl

theorem closeObject_starts : step .between '}' = some (.between, [.closeObject]) := rfl

theorem colon_starts : step .between ':' = some (.between, [.colon]) := rfl

theorem comma_starts : step .between ',' = some (.between, [.comma]) := rfl

mutual

theorem spells_compact : ∀ value : Json, Spells value.compact (Document.ofJson value).tokens
  | .null => Spells.word (by decide) rfl
  | .bool true => Spells.word (by decide) rfl
  | .bool false => Spells.word (by decide) rfl
  | .number value => Spells.number value
  | .string text => Spells.string text
  | .array items => by
      rw [compact, Document.ofJson, Document.tokens, List.cons_append]
      apply Spells.mark openArray_starts
      apply Spells.append (spells_compactItems items) (by decide)
      exact Spells.mark closeArray_starts Spells.nil
  | .object members => by
      rw [compact, Document.ofJson, Document.tokens, List.cons_append]
      apply Spells.mark openObject_starts
      apply Spells.append (spells_compactMembers members) (by decide)
      exact Spells.mark closeObject_starts Spells.nil

theorem spells_compactItems : ∀ items : List Json,
    Spells (compactItems items) (Document.itemTokens (Document.ofItems items))
  | [] => Spells.nil
  | [item] => spells_compact item
  | item :: second :: others => by
      have later := spells_compactItems (second :: others)
      exact Spells.append (spells_compact item) (by decide) (Spells.mark comma_starts later)

theorem spells_compactMembers : ∀ members : List (String × Json),
    Spells (compactMembers members) (Document.memberTokens (Document.ofMembers members))
  | [] => Spells.nil
  | [(name, value)] => by
      apply Spells.quote name
      exact Spells.mark colon_starts (spells_compact value)
  | (name, value) :: second :: others => by
      have later := spells_compactMembers (second :: others)
      rw [compactMembers, List.append_assoc]
      · apply Spells.quote name
        apply Spells.mark colon_starts
        exact Spells.append (spells_compact value) (by decide) (Spells.mark comma_starts later)
      · simp

end

theorem spells_breakTo (level : Nat) {text : List Char} {tokens : List Token}
    (spelled : Spells text tokens) : Spells (breakTo level ++ text) tokens := by
  apply Spells.spaces _ spelled
  intro character characterMem
  rcases List.mem_cons.mp characterMem with rfl | isSpace
  · decide
  · rw [List.eq_of_mem_replicate isSpace]
    decide

/-- A closing bracket on a line of its own. -/
theorem spells_closingLine (level : Nat) {text : List Char} {tokens : List Token}
    (spelled : Spells text tokens) {bracket : Char} {token : Token}
    (closes : step .between bracket = some (.between, [token])) :
    Spells (text ++ breakTo level ++ [bracket]) (tokens ++ [token]) := by
  rw [List.append_assoc]
  apply Spells.append spelled (by decide)
  exact spells_breakTo level (Spells.mark closes Spells.nil)

mutual

theorem spells_pretty (level : Nat) : ∀ value : Json,
    Spells (value.pretty level) (Document.ofJson value).tokens
  | .null => Spells.word (by decide) rfl
  | .bool true => Spells.word (by decide) rfl
  | .bool false => Spells.word (by decide) rfl
  | .number value => Spells.number value
  | .string text => Spells.string text
  | .array [] => Spells.mark openArray_starts (Spells.mark closeArray_starts Spells.nil)
  | .array (item :: items) => by
      apply Spells.mark openArray_starts
      exact spells_closingLine level (spells_prettyItems (level + 1) (item :: items))
        closeArray_starts
  | .object [] => Spells.mark openObject_starts (Spells.mark closeObject_starts Spells.nil)
  | .object (member :: members) => by
      apply Spells.mark openObject_starts
      exact spells_closingLine level (spells_prettyMembers (level + 1) (member :: members))
        closeObject_starts

theorem spells_prettyItems (level : Nat) : ∀ items : List Json,
    Spells (prettyItems level items) (Document.itemTokens (Document.ofItems items))
  | [] => Spells.nil
  | [item] => spells_breakTo level (spells_pretty level item)
  | item :: second :: others => by
      have later := spells_prettyItems level (second :: others)
      rw [prettyItems, List.append_assoc]
      · apply spells_breakTo level
        exact Spells.append (spells_pretty level item) (by decide) (Spells.mark comma_starts later)
      · simp

theorem spells_prettyMembers (level : Nat) : ∀ members : List (String × Json),
    Spells (prettyMembers level members) (Document.memberTokens (Document.ofMembers members))
  | [] => Spells.nil
  | [(name, value)] => by
      rw [prettyMembers, List.append_assoc]
      apply spells_breakTo level
      apply Spells.quote name
      apply Spells.mark colon_starts
      exact Spells.blank rfl (spells_pretty level value)
  | (name, value) :: second :: others => by
      have later := spells_prettyMembers level (second :: others)
      rw [prettyMembers, List.append_assoc, List.append_assoc]
      · apply spells_breakTo level
        apply Spells.quote name
        apply Spells.mark colon_starts
        apply Spells.blank rfl
        exact Spells.append (spells_pretty level value) (by decide)
          (Spells.mark comma_starts later)
      · simp

end

/-! ## From tokens to documents -/

namespace Reader

theorem foldlM_cons_of_step {state next : State} {token : Token}
    (taken : step state token = some next) (rest : List Token) :
    (token :: rest).foldlM step state = rest.foldlM step next := by
  rw [List.foldlM_cons, taken]
  rfl

theorem foldlM_append_of_read {state next : State} {tokens : List Token}
    (read : tokens.foldlM step state = some next) (rest : List Token) :
    (tokens ++ rest).foldlM step state = rest.foldlM step next := by
  rw [List.foldlM_append, read]
  rfl

/-- No item starts with a bracket that closes its array. -/
theorem foldlM_firstItem {items : List Document} (nonempty : items ≠ []) (stack : List Frame)
    (rest : List Token) :
    (Document.itemTokens items ++ rest).foldlM step (.firstItem stack) =
      (Document.itemTokens items ++ rest).foldlM step (.value (.array [] :: stack)) := by
  cases items with
  | nil => contradiction
  | cons item others => cases others <;> cases item <;> rfl

theorem foldlM_firstKey {members : List (List StringPart × Document)} (nonempty : members ≠ [])
    (stack : List Frame) (rest : List Token) :
    (Document.memberTokens members ++ rest).foldlM step (.firstKey stack) =
      (Document.memberTokens members ++ rest).foldlM step (.key [] stack) := by
  cases members with
  | nil => contradiction
  | cons member others => cases others <;> rfl

-- By recursion on the document, for every stack around it: an item is read before the container
-- that it stands in is known.
mutual

theorem foldlM_tokens : ∀ (document : Document) (stack : List Frame),
    document.tokens.foldlM step (.value stack) = some (give document stack)
  | .null, _ => rfl
  | .bool _, _ => rfl
  | .number _, _ => rfl
  | .string _, _ => rfl
  | .array [], _ => rfl
  | .array (item :: items), stack => by
      have opened : step (.value stack) .openArray = some (.firstItem stack) := rfl
      have nonempty := List.cons_ne_nil item items
      rw [Document.tokens, foldlM_cons_of_step opened, foldlM_firstItem nonempty,
        foldlM_append_of_read (foldlM_itemTokens (item :: items) [] stack nonempty),
        List.append_nil]
      -- The reader has kept the items last first.
      change some (give (.array (item :: items).reverse.reverse) stack) = _
      rw [List.reverse_reverse]
  | .object [], _ => rfl
  | .object (member :: members), stack => by
      have opened : step (.value stack) .openObject = some (.firstKey stack) := rfl
      have nonempty := List.cons_ne_nil member members
      rw [Document.tokens, foldlM_cons_of_step opened, foldlM_firstKey nonempty,
        foldlM_append_of_read (foldlM_memberTokens (member :: members) [] stack nonempty),
        List.append_nil]
      change some (give (.object (member :: members).reverse.reverse) stack) = _
      rw [List.reverse_reverse]

theorem foldlM_itemTokens : ∀ (items before : List Document) (stack : List Frame), items ≠ [] →
    (Document.itemTokens items).foldlM step (.value (.array before :: stack)) =
      some (.afterItem (items.reverse ++ before) stack)
  | [], _, _, nonempty => absurd rfl nonempty
  | [item], before, stack, _ => foldlM_tokens item (.array before :: stack)
  | item :: second :: others, before, stack, _ => by
      have comma : step (.afterItem (item :: before) stack) .comma =
          some (.value (.array (item :: before) :: stack)) := rfl
      have later := foldlM_itemTokens (second :: others) (item :: before) stack
        (List.cons_ne_nil second others)
      rw [Document.itemTokens, foldlM_append_of_read (foldlM_tokens item _)]
      · refine (foldlM_cons_of_step comma _).trans ?_
        rw [later]
        simp
      · simp

theorem foldlM_memberTokens : ∀ (members before : List (List StringPart × Document))
    (stack : List Frame), members ≠ [] →
    (Document.memberTokens members).foldlM step (.key before stack) =
      some (.afterMember (members.reverse ++ before) stack)
  | [], _, _, nonempty => absurd rfl nonempty
  | [(key, value)], before, stack, _ => foldlM_tokens value (.object before key :: stack)
  | (key, value) :: second :: others, before, stack, _ => by
      have named : step (.key before stack) (.string key) = some (.colon before key stack) := rfl
      have colon : step (.colon before key stack) .colon =
          some (.value (.object before key :: stack)) := rfl
      have comma : step (.afterMember ((key, value) :: before) stack) .comma =
          some (.key ((key, value) :: before) stack) := rfl
      have later := foldlM_memberTokens (second :: others) ((key, value) :: before) stack
        (List.cons_ne_nil second others)
      rw [Document.memberTokens, foldlM_cons_of_step named, foldlM_cons_of_step colon,
        foldlM_append_of_read (foldlM_tokens value _)]
      · refine (foldlM_cons_of_step comma _).trans ?_
        rw [later]
        simp
      · simp

end

end Reader

theorem Document.read?_of_spells {text : String} {document : Document}
    (spelled : Spells text.toList document.tokens) : Document.read? text = some document := by
  have read := Reader.foldlM_tokens document []
  simp [Document.read?, tokens?_of_spells spelled, read, Reader.give, Reader.finish?]

/-! ## From documents to values -/

theorem textOf?_unit {code : Nat} (notHigh : isHighSurrogate code = false)
    (notLow : isLowSurrogate code = false) (rest : List StringPart) :
    textOf? (.unit code :: rest) = (textOf? rest).map (Char.ofNat code :: ·) := by
  cases rest with
  | nil => simp [textOf?, notHigh, notLow]
  | cons part more => cases part <;> simp [textOf?, notHigh, notLow]

theorem textOf?_written (text : List Char) : textOf? (text.map .written) = some text := by
  induction text with
  | nil => rfl
  | cons character rest ih =>
      rw [List.map_cons, StringPart.written]
      split
      · rename_i escaped
        have inRange : character.toNat < 32 := escaped.1
        have notHigh : isHighSurrogate character.toNat = false := by
          simp [isHighSurrogate]
          omega
        have notLow : isLowSurrogate character.toNat = false := by
          simp [isLowSurrogate]
          omega
        rw [textOf?_unit notHigh notLow, ih, Char.ofNat_toNat]
        rfl
      · rw [textOf?, ih]
        rfl

theorem stringOf?_written (text : String) : stringOf? (text.toList.map .written) = some text := by
  rw [stringOf?, textOf?_written, Option.map_some, String.ofList_toList]

mutual

/-- The value of a document of any depth and with numbers of any size. -/
def Document.value? : Document → Option Json
  | .null => some .null
  | .bool value => some (.bool value)
  | .number value => some (.number value)
  | .string parts => (stringOf? parts).map .string
  | .array items => (itemValues? items).map .array
  | .object members => (memberValues? members).map .object

def Document.itemValues? : List Document → Option (List Json)
  | [] => some []
  | item :: rest => do
      let value ← item.value?
      let values ← itemValues? rest
      pure (value :: values)

def Document.memberValues? :
    List (List StringPart × Document) → Option (List (String × Json))
  | [] => some []
  | (key, item) :: rest => do
      let name ← stringOf? key
      let value ← item.value?
      let values ← memberValues? rest
      pure ((name, value) :: values)

end

mutual

theorem Document.value?_ofJson : ∀ value : Json, (ofJson value).value? = some value
  | .null => rfl
  | .bool _ => rfl
  | .number _ => rfl
  | .string text => by
      rw [ofJson, Document.value?, stringOf?_written]
      rfl
  | .array items => by
      rw [ofJson, Document.value?, itemValues?_ofItems items]
      rfl
  | .object members => by
      rw [ofJson, Document.value?, memberValues?_ofMembers members]
      rfl

theorem Document.itemValues?_ofItems : ∀ items : List Json,
    itemValues? (ofItems items) = some items
  | [] => rfl
  | item :: rest => by
      rw [ofItems, itemValues?, value?_ofJson item, itemValues?_ofItems rest]
      rfl

theorem Document.memberValues?_ofMembers : ∀ members : List (String × Json),
    memberValues? (ofMembers members) = some members
  | [] => rfl
  | (name, value) :: rest => by
      rw [ofMembers, memberValues?, stringOf?_written, value?_ofJson value,
        memberValues?_ofMembers rest]
      rfl

end

/-- Reads a text as `Json.parse?` does, but at any depth and with numbers of any size. -/
def read? (text : String) : Option Json :=
  (Document.read? text).bind Document.value?

theorem read?_of_spells {text : String} {value : Json}
    (spelled : Spells text.toList (Document.ofJson value).tokens) : read? text = some value := by
  rw [read?, Document.read?_of_spells spelled]
  exact Document.value?_ofJson value

/-- A line feed may end the text. -/
theorem read?_of_spells_ended {text : String} {value : Json}
    (spelled : Spells text.toList (Document.ofJson value).tokens) :
    read? (text ++ "\n") = some value := by
  apply read?_of_spells
  rw [String.toList_append, ← List.append_nil (Document.tokens _)]
  apply Spells.append spelled (by decide)
  exact Spells.blank rfl Spells.nil

theorem spells_toLine (value : Json) :
    Spells value.toLine.toList (Document.ofJson value).tokens := by
  rw [toLine, String.toList_ofList]
  exact spells_compact value

theorem spells_toText (value : Json) :
    Spells value.toText.toList (Document.ofJson value).tokens := by
  rw [toText, String.toList_ofList]
  exact spells_pretty 0 value

theorem read?_toLine (value : Json) : read? value.toLine = some value :=
  read?_of_spells (spells_toLine value)

theorem read?_toText (value : Json) : read? value.toText = some value :=
  read?_of_spells (spells_toText value)

theorem read?_toLine_ended (value : Json) : read? (value.toLine ++ "\n") = some value :=
  read?_of_spells_ended (spells_toLine value)

theorem read?_toText_ended (value : Json) : read? (value.toText ++ "\n") = some value :=
  read?_of_spells_ended (spells_toText value)

/-! ## Lists of records -/

section Lists

variable {α β : Type} {write : α → Json} {decode? : Json → Option β}

theorem mapM_map_of_shows {view : α → β}
    (shows : ∀ value, decode? (write value) = some (view value)) (values : List α) :
    (values.map write).mapM decode? = some (values.map view) := by
  induction values with
  | nil => rfl
  | cons value rest ih => simp [shows, ih]

theorem mapM_map_of_reads {decode? : Json → Option α}
    (reads : ∀ value, decode? (write value) = some value) (values : List α) :
    (values.map write).mapM decode? = some values := by
  rw [mapM_map_of_shows reads, List.map_id']

end Lists

end ReleaseAdvisor.Json
