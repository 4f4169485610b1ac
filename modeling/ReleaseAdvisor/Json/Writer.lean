import ReleaseAdvisor.Json.Value

/-!
# Writing JSON

Two layouts of the same tokens: `Json.compact` puts a value on one line without spaces,
`Json.pretty` puts every item on a line of its own, two spaces further in than its container;
empty containers stay on one line.

In strings the quote, the backslash and the characters below U+0020 are escaped, five of the
latter by a letter and the others by `\u00xx`; all else is written as it is.
-/

namespace ReleaseAdvisor.Json

def hexDigit (value : Nat) : Char :=
  if value < 10 then Char.ofNat (48 + value) else Char.ofNat (87 + value)

def escape (character : Char) : List Char :=
  match character with
  | '"' => ['\\', '"']
  | '\\' => ['\\', '\\']
  | '\x08' => ['\\', 'b']
  | '\x0c' => ['\\', 'f']
  | '\n' => ['\\', 'n']
  | '\r' => ['\\', 'r']
  | '\t' => ['\\', 't']
  | _ =>
      if character < ' ' then
        ['\\', 'u', '0', '0', hexDigit (character.toNat / 16), hexDigit (character.toNat % 16)]
      else [character]

def quote (text : String) : List Char :=
  '"' :: text.toList.flatMap escape ++ ['"']

/-- A number: sign, whole part, the digits after the point if there are any, and the power of ten
unless it is zero. -/
def Number.written (number : Number) : List Char :=
  (if number.negative then ['-'] else []) ++
    Nat.toDigits 10 number.whole ++
    (if number.fraction.isEmpty then []
      else '.' :: number.fraction.map fun digit => digit.val.digitChar) ++
    (if number.exponent = 0 then []
      else 'e' :: (if number.exponent < 0 then ['-'] else []) ++
        Nat.toDigits 10 number.exponent.natAbs)

def atom : Json → List Char
  | .null => "null".toList
  | .bool true => "true".toList
  | .bool false => "false".toList
  | .number value => value.written
  | .string text => quote text
  | .array _ | .object _ => []

mutual

def compact : Json → List Char
  | .array items => '[' :: compactItems items ++ [']']
  | .object members => '{' :: compactMembers members ++ ['}']
  | value => value.atom

def compactItems : List Json → List Char
  | [] => []
  | [item] => compact item
  | item :: rest => compact item ++ ',' :: compactItems rest

def compactMembers : List (String × Json) → List Char
  | [] => []
  | [(name, value)] => quote name ++ ':' :: compact value
  | (name, value) :: rest => quote name ++ ':' :: compact value ++ ',' :: compactMembers rest

end

def breakTo (level : Nat) : List Char :=
  '\n' :: List.replicate (2 * level) ' '

mutual

/-- The value over several lines; `level` is the indentation of the line it starts on. -/
def pretty (level : Nat) : Json → List Char
  | .array [] => ['[', ']']
  | .array items => '[' :: prettyItems (level + 1) items ++ breakTo level ++ [']']
  | .object [] => ['{', '}']
  | .object members => '{' :: prettyMembers (level + 1) members ++ breakTo level ++ ['}']
  | value => value.atom

def prettyItems (level : Nat) : List Json → List Char
  | [] => []
  | [item] => breakTo level ++ pretty level item
  | item :: rest => breakTo level ++ pretty level item ++ ',' :: prettyItems level rest

def prettyMembers (level : Nat) : List (String × Json) → List Char
  | [] => []
  | [(name, value)] => breakTo level ++ quote name ++ ':' :: ' ' :: pretty level value
  | (name, value) :: rest =>
      breakTo level ++ quote name ++ ':' :: ' ' :: pretty level value ++
        ',' :: prettyMembers level rest

end

def toLine (value : Json) : String :=
  String.ofList value.compact

def toText (value : Json) : String :=
  String.ofList (value.pretty 0)

end ReleaseAdvisor.Json
