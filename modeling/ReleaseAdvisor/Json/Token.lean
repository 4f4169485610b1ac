import ReleaseAdvisor.Json.Number

/-!
# JSON tokens

The strict lexical grammar of RFC 8259. The lexer is a machine that takes one character at a
time: `Lexer.step` says what a character does in each state, and `tokens?` runs it over a text.
A number ends at the first character that cannot continue it, which then starts the next token.

String literals are kept as `StringPart`s, so that a literal whose `\u` escapes do not pair up
still has a token: such a literal is well formed and has no text.
-/

namespace ReleaseAdvisor.Json

/-- One piece of a string literal: a character, or a UTF-16 code unit written as `\uXXXX`. -/
inductive StringPart where
  | char (character : Char)
  | unit (code : Nat)
  deriving DecidableEq, Repr

inductive Token where
  | openArray
  | closeArray
  | openObject
  | closeObject
  | colon
  | comma
  | null
  | bool (value : Bool)
  | number (value : Number)
  | string (parts : List StringPart)
  deriving DecidableEq, Repr

namespace Lexer

inductive StringPhase where
  | plain
  | escape
  | unit (missing : Nat) (code : Nat)
  deriving DecidableEq, Repr

inductive NumberPhase where
  | sign
  | zero
  | whole
  | point
  | fraction
  | mark
  | exponentSign
  | exponent
  deriving DecidableEq, Repr

/-- A number of which some characters have been read; the last fraction digit comes first. -/
structure NumberDraft where
  phase : NumberPhase
  negative : Bool
  whole : Nat
  fraction : List (Fin 10)
  exponentNegative : Bool
  exponent : Nat
  deriving DecidableEq, Repr

namespace NumberDraft

def start (phase : NumberPhase) (negative : Bool) (whole : Nat) : NumberDraft :=
  ⟨phase, negative, whole, [], false, 0⟩

def finish? (draft : NumberDraft) : Option Number :=
  let number : Number :=
    ⟨draft.negative, draft.whole, draft.fraction.reverse,
      if draft.exponentNegative then -draft.exponent else draft.exponent⟩
  match draft.phase with
  | .zero | .whole | .fraction | .exponent => some number
  | .sign | .point | .mark | .exponentSign => none

end NumberDraft

def digit? (character : Char) : Option (Fin 10) :=
  if '0' ≤ character ∧ character ≤ '9' then some (Fin.ofNat 10 (character.toNat - 48)) else none

def hexDigit? (character : Char) : Option Nat :=
  if '0' ≤ character ∧ character ≤ '9' then some (character.toNat - 48)
  else if 'a' ≤ character ∧ character ≤ 'f' then some (character.toNat - 87)
  else if 'A' ≤ character ∧ character ≤ 'F' then some (character.toNat - 55)
  else none

def NumberDraft.extend? (draft : NumberDraft) (character : Char) : Option NumberDraft :=
  match draft.phase, digit? character with
  | .sign, some digit =>
      some { draft with phase := if digit = 0 then .zero else .whole, whole := digit }
  | .whole, some digit => some { draft with whole := draft.whole * 10 + digit }
  | .point, some digit | .fraction, some digit =>
      some { draft with phase := .fraction, fraction := digit :: draft.fraction }
  | .mark, some digit | .exponentSign, some digit | .exponent, some digit =>
      some { draft with phase := .exponent, exponent := draft.exponent * 10 + digit }
  | .zero, none | .whole, none =>
      if character = '.' then some { draft with phase := .point }
      else if character = 'e' ∨ character = 'E' then some { draft with phase := .mark }
      else none
  | .fraction, none =>
      if character = 'e' ∨ character = 'E' then some { draft with phase := .mark } else none
  | .mark, none =>
      if character = '+' then some { draft with phase := .exponentSign }
      else if character = '-' then
        some { draft with phase := .exponentSign, exponentNegative := true }
      else none
  | _, _ => none

/-- The state of the lexer between two characters. The parts of a string are kept last first. -/
inductive State where
  | between
  | word (missing : List Char) (token : Token)
  | string (parts : List StringPart) (phase : StringPhase)
  | number (draft : NumberDraft)
  deriving DecidableEq, Repr

/-- JSON's white space: space, tab, line feed and carriage return. -/
def isSpace (character : Char) : Bool :=
  character == ' ' || character == '\t' || character == '\n' || character == '\r'

def shortEscape? (character : Char) : Option Char :=
  match character with
  | '"' => some '"'
  | '\\' => some '\\'
  | '/' => some '/'
  | 'b' => some '\x08'
  | 'f' => some '\x0c'
  | 'n' => some '\n'
  | 'r' => some '\r'
  | 't' => some '\t'
  | _ => none

def start (character : Char) : Option (State × List Token) :=
  match character with
  | '[' => some (.between, [.openArray])
  | ']' => some (.between, [.closeArray])
  | '{' => some (.between, [.openObject])
  | '}' => some (.between, [.closeObject])
  | ':' => some (.between, [.colon])
  | ',' => some (.between, [.comma])
  | '"' => some (.string [] .plain, [])
  | 'n' => some (.word ['u', 'l', 'l'] .null, [])
  | 't' => some (.word ['r', 'u', 'e'] (.bool true), [])
  | 'f' => some (.word ['a', 'l', 's', 'e'] (.bool false), [])
  | '-' => some (.number (.start .sign true 0), [])
  | _ =>
      if isSpace character then some (.between, [])
      else
        match digit? character with
        | some digit =>
            some (.number (.start (if digit = 0 then .zero else .whole) false digit), [])
        | none => none

def stepString (parts : List StringPart) (phase : StringPhase) (character : Char) :
    Option (State × List Token) :=
  match phase with
  | .plain =>
      if character = '"' then some (.between, [.string parts.reverse])
      else if character = '\\' then some (.string parts .escape, [])
      else if character < ' ' then none
      else some (.string (.char character :: parts) .plain, [])
  | .escape =>
      if character = 'u' then some (.string parts (.unit 3 0), [])
      else
        (shortEscape? character).map fun meant =>
          (.string (.char meant :: parts) .plain, [])
  | .unit missing code =>
      (hexDigit? character).map fun digit =>
        match missing with
        | 0 => (.string (.unit (code * 16 + digit) :: parts) .plain, [])
        | more + 1 => (.string parts (.unit more (code * 16 + digit)), [])

def step (state : State) (character : Char) : Option (State × List Token) :=
  match state with
  | .between => start character
  | .word missing token =>
      match missing with
      | [] => none
      | [last] => if character = last then some (.between, [token]) else none
      | next :: more => if character = next then some (.word more token, []) else none
  | .string parts phase => stepString parts phase character
  | .number draft =>
      match draft.extend? character with
      | some extended => some (.number extended, [])
      | none => do
          let number ← draft.finish?
          let (next, completed) ← start character
          pure (next, .number number :: completed)

def finish? : State → Option (List Token)
  | .between => some []
  | .number draft => draft.finish?.map fun number => [.number number]
  | .word _ _ | .string _ _ => none

def advance (progress : State × List Token) (character : Char) : Option (State × List Token) :=
  (step progress.1 character).map fun (next, completed) =>
    (next, completed.reverse ++ progress.2)

end Lexer

def tokens? (text : List Char) : Option (List Token) := do
  let (state, completed) ← text.foldlM Lexer.advance (.between, [])
  let last ← Lexer.finish? state
  pure (completed.reverse ++ last)

end ReleaseAdvisor.Json
