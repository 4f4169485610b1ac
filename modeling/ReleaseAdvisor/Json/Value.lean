import ReleaseAdvisor.Json.Document

/-!
# JSON values

A `Json` is what a document means: string literals have become text and numbers are finite.
Members keep their order and repetitions, so that a reader of a record can refuse a repeated key.

Reading is total on documents but refuses three things: a string whose code units do not pair up,
a number out of range, and nesting beyond a limit. `Json.ofDocument?` reads a whole document;
`Json.ofRecord?` reads a record whose unknown members are skipped unread, so that nothing in them
can be refused.
-/

namespace ReleaseAdvisor

/-- A JSON value. -/
inductive Json where
  | null
  | bool (value : Bool)
  | number (value : Json.Number)
  | string (text : String)
  | array (items : List Json)
  | object (members : List (String × Json))
  deriving Repr

namespace Json

def isHighSurrogate (code : Nat) : Bool :=
  0xD800 ≤ code && code ≤ 0xDBFF

def isLowSurrogate (code : Nat) : Bool :=
  0xDC00 ≤ code && code ≤ 0xDFFF

/-- The text of a string literal. A leading half must be followed at once by a trailing one, and
a trailing half must follow a leading one; otherwise the literal has no text. -/
def textOf? : List StringPart → Option (List Char)
  | [] => some []
  | .char character :: rest => (textOf? rest).map (character :: ·)
  | .unit high :: .unit low :: rest =>
      if isHighSurrogate high then
        if isLowSurrogate low then
          (textOf? rest).map
            (Char.ofNat (0x10000 + (high - 0xD800) * 0x400 + (low - 0xDC00)) :: ·)
        else none
      else if isLowSurrogate high then none
      else (textOf? (.unit low :: rest)).map (Char.ofNat high :: ·)
  | .unit code :: rest =>
      if isHighSurrogate code || isLowSurrogate code then none
      else (textOf? rest).map (Char.ofNat code :: ·)

def stringOf? (parts : List StringPart) : Option String :=
  (textOf? parts).map String.ofList

mutual

def ofDocument? (depth : Nat) : Document → Option Json
  | .null => some .null
  | .bool value => some (.bool value)
  | .number value => if value.isFinite then some (.number value) else none
  | .string parts => (stringOf? parts).map .string
  | .array items =>
      match depth with
      | 0 => none
      | depth + 1 => (ofItems? depth items).map .array
  | .object members =>
      match depth with
      | 0 => none
      | depth + 1 => (ofMembers? depth members).map .object

def ofItems? (depth : Nat) : List Document → Option (List Json)
  | [] => some []
  | item :: rest => do
      let value ← ofDocument? depth item
      let values ← ofItems? depth rest
      pure (value :: values)

def ofMembers? (depth : Nat) :
    List (List StringPart × Document) → Option (List (String × Json))
  | [] => some []
  | (key, item) :: rest => do
      let name ← stringOf? key
      let value ← ofDocument? depth item
      let values ← ofMembers? depth rest
      pure ((name, value) :: values)

end

/-- How many nested containers a text may have, counted from its root. -/
def maxDepth : Nat :=
  127

/-- Reads the members with one of the given names; of the others only the keys are read. -/
def ofNamedMembers? (names : List String) (depth : Nat) :
    List (List StringPart × Document) → Option (List (String × Json))
  | [] => some []
  | (key, item) :: rest => do
      let name ← stringOf? key
      if name ∈ names then
        let value ← ofDocument? depth item
        let values ← ofNamedMembers? names depth rest
        pure ((name, value) :: values)
      else
        ofNamedMembers? names depth rest

/-- Reads a record with the given member names; members with other names are dropped. A document
that is not an object is read whole. -/
def ofRecord? (names : List String) (depth : Nat) : Document → Option Json
  | .object members =>
      match depth with
      | 0 => none
      | depth + 1 => (ofNamedMembers? names depth members).map .object
  | document => ofDocument? depth document

def parse? (text : String) : Option Json := do
  ofDocument? maxDepth (← Document.read? text)

mutual

/-- The value with each repeated key keeping its last member only. -/
def lastWins : Json → Json
  | .array items => .array (lastWinsItems items)
  | .object members => .object (lastWinsMembers members)
  | value => value

def lastWinsItems : List Json → List Json
  | [] => []
  | item :: rest => lastWins item :: lastWinsItems rest

def lastWinsMembers : List (String × Json) → List (String × Json)
  | [] => []
  | (name, value) :: rest =>
      let kept := lastWinsMembers rest
      if kept.any (·.1 == name) then kept else (name, lastWins value) :: kept

end

/-- A member of an object that may be missing but not repeated. -/
inductive Member where
  | missing
  | present (value : Json)
  | repeated

def member (members : List (String × Json)) (name : String) : Member :=
  match members.filter (·.1 == name) with
  | [] => .missing
  | [(_, value)] => .present value
  | _ => .repeated

end Json

end ReleaseAdvisor
