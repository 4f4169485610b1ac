/-!
# Strings of TOML

A string stands in double quotes, which admit escapes, or in single quotes, which do not, and in
one quote or three, which admit line breaks. Reading one takes two steps: finding its end, then
decoding what stands before it. Line breaks are line feeds here: the reader of a document has
replaced the others.
-/

namespace ReleaseAdvisor.Toml

def isPlain (character : Char) : Bool :=
  character == '\t' || (' ' ≤ character && character != '\x7f')

/-- A character that is read as part of a body that ends later. -/
def intoBody (characters : List Char) (found : Option (List Char × List Char)) :
    Option (List Char × List Char) :=
  found.map fun (body, rest) => (characters ++ body, rest)

/-- Splits at the closing double quote; an escaped one does not close. -/
def splitQuoted : List Char → Option (List Char × List Char)
  | [] => none
  | '"' :: rest => some ([], rest)
  | '\\' :: escaped :: rest => intoBody ['\\', escaped] (splitQuoted rest)
  | character :: rest => intoBody [character] (splitQuoted rest)

/-- Splits at three closing quotes. Up to two more quotes right before them are content. -/
def splitTripled (mark : Char) (escapes : Bool) : List Char → Option (List Char × List Char)
  | [] => none
  | [_] => none
  | first :: second :: rest =>
      if escapes ∧ first = '\\' then intoBody [first, second] (splitTripled mark escapes rest)
      else if first = mark ∧ second = mark ∧ rest.head? = some mark then
        let after := rest.drop 1
        let extra := min 2 (after.takeWhile (· == mark)).length
        some (List.replicate extra mark, after.drop extra)
      else intoBody [first] (splitTripled mark escapes (second :: rest))

/-- Where inside an escape the decoder stands. A backslash at the end of a line removes all blanks
and line breaks up to the next character; `gap` is that state, with whether the line has ended. -/
inductive EscapePhase where
  | plain
  | escape
  | scalar (missing : Nat) (code : Nat)
  | gap (ended : Bool)
  deriving DecidableEq, Repr

def letterEscape? (character : Char) : Option Char :=
  match character with
  | 'b' => some '\x08'
  | 'f' => some '\x0c'
  | 'n' => some '\n'
  | 'r' => some '\r'
  | 't' => some '\t'
  | '"' => some '"'
  | '\\' => some '\\'
  | _ => none

def hexDigit? (character : Char) : Option Nat :=
  if character.isDigit then some (character.toNat - 48)
  else if 'a' ≤ character ∧ character ≤ 'f' then some (character.toNat - 87)
  else if 'A' ≤ character ∧ character ≤ 'F' then some (character.toNat - 55)
  else none

def scalarValue? (code : Nat) : Option Char :=
  if code < 0xD800 ∨ (0xE000 ≤ code ∧ code < 0x110000) then some (Char.ofNat code) else none

def decodePlain (multiline : Bool) (decoded : List Char) (character : Char) :
    Option (EscapePhase × List Char) :=
  if character = '\\' then some (.escape, decoded)
  else if isPlain character ∨ (multiline ∧ character = '\n') then
    some (.plain, character :: decoded)
  else none

/-- One step of the decoder; the decoded characters come last first. -/
def decodeStep (multiline : Bool) (progress : EscapePhase × List Char) (character : Char) :
    Option (EscapePhase × List Char) :=
  let (phase, decoded) := progress
  let isGap := character == ' ' || character == '\t'
  match phase with
  | .plain => decodePlain multiline decoded character
  | .escape =>
      if character = 'u' then some (.scalar 3 0, decoded)
      else if character = 'U' then some (.scalar 7 0, decoded)
      else if multiline ∧ isGap then some (.gap false, decoded)
      else if multiline ∧ character = '\n' then some (.gap true, decoded)
      else (letterEscape? character).map fun meant => (.plain, meant :: decoded)
  | .scalar missing code => do
      let extended := code * 16 + (← hexDigit? character)
      match missing with
      | 0 => (scalarValue? extended).map fun meant => (.plain, meant :: decoded)
      | more + 1 => some (.scalar more extended, decoded)
  | .gap ended =>
      if isGap then some (.gap ended, decoded)
      else if character = '\n' then some (.gap true, decoded)
      else if ended then decodePlain multiline decoded character
      else none

def decode? (multiline : Bool) (body : List Char) : Option String := do
  let (phase, decoded) ← body.foldlM (decodeStep multiline) (.plain, [])
  match phase with
  | .plain | .gap true => some (String.ofList decoded.reverse)
  | .escape | .scalar _ _ | .gap false => none

def dropFirstBreak : List Char → List Char
  | '\n' :: rest => rest
  | text => text

def lineString? : List Char → Option (String × List Char)
  | '"' :: text => do
      let (body, rest) ← splitQuoted text
      pure (← decode? false body, rest)
  | '\'' :: text =>
      match text.span fun character => isPlain character && character != '\'' with
      | (body, '\'' :: rest) => some (String.ofList body, rest)
      | _ => none
  | _ => none

def string? : List Char → Option (String × List Char)
  | '"' :: '"' :: '"' :: text => do
      let (body, rest) ← splitTripled '"' true (dropFirstBreak text)
      pure (← decode? true body, rest)
  | '\'' :: '\'' :: '\'' :: text => do
      let (body, rest) ← splitTripled '\'' false (dropFirstBreak text)
      if body.all fun character => isPlain character || character == '\n' then
        some (String.ofList body, rest)
      else none
  | text => lineString? text

end ReleaseAdvisor.Toml
