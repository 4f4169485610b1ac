import ReleaseAdvisor.Json.Token

/-!
# JSON documents

A `Document` is the tree of a JSON text as it is written. It keeps every member of an object,
repeated keys included, and string literals in their parts, so it exists for every text with the
right syntax, whatever the values mean and however deep they nest.

The reader is a stack machine over tokens: a `Frame` is a container that is still open, and
`Reader.step` says what a token does.
-/

namespace ReleaseAdvisor.Json

/-- A JSON value as it is written. -/
inductive Document where
  | null
  | bool (value : Bool)
  | number (value : Number)
  | string (parts : List StringPart)
  | array (items : List Document)
  | object (members : List (List StringPart × Document))
  deriving Repr

namespace Reader

/-- A container that is still open, with what it holds so far, last first. An object also has
the key whose value is being read. -/
inductive Frame where
  | array (items : List Document)
  | object (members : List (List StringPart × Document)) (key : List StringPart)

/-- What the reader expects next; the stack holds the containers around that place. -/
inductive State where
  | value (stack : List Frame)
  | firstItem (stack : List Frame)
  | afterItem (items : List Document) (stack : List Frame)
  | firstKey (stack : List Frame)
  | key (members : List (List StringPart × Document)) (stack : List Frame)
  | colon (members : List (List StringPart × Document)) (key : List StringPart)
      (stack : List Frame)
  | afterMember (members : List (List StringPart × Document)) (stack : List Frame)
  | complete (document : Document)

def give (document : Document) : List Frame → State
  | [] => .complete document
  | .array items :: stack => .afterItem (document :: items) stack
  | .object members key :: stack => .afterMember ((key, document) :: members) stack

def begin (token : Token) (stack : List Frame) : Option State :=
  match token with
  | .null => some (give .null stack)
  | .bool value => some (give (.bool value) stack)
  | .number value => some (give (.number value) stack)
  | .string parts => some (give (.string parts) stack)
  | .openArray => some (.firstItem stack)
  | .openObject => some (.firstKey stack)
  | .closeArray | .closeObject | .colon | .comma => none

def step (state : State) (token : Token) : Option State :=
  match state with
  | .value stack => begin token stack
  | .firstItem stack =>
      match token with
      | .closeArray => some (give (.array []) stack)
      | _ => begin token (.array [] :: stack)
  | .afterItem items stack =>
      match token with
      | .comma => some (.value (.array items :: stack))
      | .closeArray => some (give (.array items.reverse) stack)
      | _ => none
  | .firstKey stack =>
      match token with
      | .closeObject => some (give (.object []) stack)
      | .string key => some (.colon [] key stack)
      | _ => none
  | .key members stack =>
      match token with
      | .string key => some (.colon members key stack)
      | _ => none
  | .colon members key stack =>
      match token with
      | .colon => some (.value (.object members key :: stack))
      | _ => none
  | .afterMember members stack =>
      match token with
      | .comma => some (.key members stack)
      | .closeObject => some (give (.object members.reverse) stack)
      | _ => none
  | .complete _ => none

def finish? : State → Option Document
  | .complete document => some document
  | _ => none

end Reader

def Document.read? (text : String) : Option Document := do
  let tokens ← tokens? text.toList
  let state ← tokens.foldlM Reader.step (.value [])
  Reader.finish? state

end ReleaseAdvisor.Json
