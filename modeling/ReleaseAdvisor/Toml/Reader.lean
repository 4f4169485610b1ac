import ReleaseAdvisor.Toml.Scalar
import ReleaseAdvisor.Toml.Text

/-!
# Reading TOML

A document is read in three steps: its line breaks are made uniform, its lines become statements,
and the statements build the table. Readers take the text from where they start and return what
they have read with the rest of the text.

Containers nest at most `maxDepth` deep and a dotted key has at most `maxDepth` parts. The other
bound that the recursive readers carry exceeds the length of the text. It is never met: the calls
open at one place are at most two for each bracket that is still to be closed and one for each
item that has been read.
-/

namespace ReleaseAdvisor.Toml

/-- How deep arrays and tables in braces may nest, and how many parts a dotted key may have. -/
def maxDepth : Nat :=
  79

/-- Makes every line break a line feed; a carriage return without one is refused. -/
def uniformBreaks? : List Char → Option (List Char)
  | [] => some []
  | '\r' :: '\n' :: rest => (uniformBreaks? rest).map ('\n' :: ·)
  | character :: rest =>
      if character = '\r' then none else (uniformBreaks? rest).map (character :: ·)

def skipSpaces (text : List Char) : List Char :=
  text.dropWhile fun character => character == ' ' || character == '\t'

def skipComment : List Char → List Char
  | '#' :: rest => rest.dropWhile isPlain
  | text => text

def skipTrivia (inComment : Bool) : List Char → List Char
  | [] => []
  | character :: rest =>
      if inComment then
        if character = '\n' then skipTrivia false rest
        else if isPlain character then skipTrivia true rest
        else character :: rest
      else if character = ' ' ∨ character = '\t' ∨ character = '\n' then skipTrivia false rest
      else if character = '#' then skipTrivia true rest
      else character :: rest

def endOfLine? (text : List Char) : Option (List Char) :=
  match skipComment (skipSpaces text) with
  | [] => some []
  | '\n' :: rest => some rest
  | _ => none

def isBareKeyCharacter (character : Char) : Bool :=
  character.isAlphanum || character == '_' || character == '-'

def keyPart? (text : List Char) : Option (String × List Char) :=
  match text with
  | '"' :: _ | '\'' :: _ => lineString? text
  | _ =>
      match text.span isBareKeyCharacter with
      | ([], _) => none
      | (key, rest) => some (String.ofList key, rest)

/-- Reads a dotted key of at most `parts` parts: the path before its last part, and that part. -/
def key? (parts : Nat) (text : List Char) : Option ((List String × String) × List Char) :=
  match parts with
  | 0 => none
  | fewer + 1 => do
      let (part, rest) ← keyPart? (skipSpaces text)
      match skipSpaces rest with
      | '.' :: more => do
          let ((path, last), rest) ← key? fewer more
          pure ((part :: path, last), rest)
      | rest => pure (([], part), rest)

mutual

def value? (bound depth : Nat) (text : List Char) : Option (Toml × List Char) :=
  match bound with
  | 0 => none
  | bound + 1 =>
      match text with
      | '"' :: _ | '\'' :: _ => (string? text).map fun (value, rest) => (.string value, rest)
      | '[' :: rest =>
          match depth with
          | 0 => none
          | depth + 1 =>
              (items? bound depth rest).map fun (items, rest) => (.array items, rest)
      | '{' :: rest =>
          match depth with
          | 0 => none
          | depth + 1 => do
              let (pairs, rest) ←
                match skipSpaces rest with
                | '}' :: rest => pure ([], rest)
                | _ => pairs? bound depth rest
              pure (← ofPairs? pairs, rest)
      | _ => scalarFrom? text

def items? (bound depth : Nat) (text : List Char) : Option (List Toml × List Char) :=
  match bound with
  | 0 => none
  | bound + 1 =>
      match skipTrivia false text with
      | ']' :: rest => some ([], rest)
      | start => do
          let (item, rest) ← value? bound depth start
          match skipTrivia false rest with
          | ',' :: rest => do
              let (items, rest) ← items? bound depth rest
              pure (item :: items, rest)
          | ']' :: rest => pure ([item], rest)
          | _ => none

def pairs? (bound depth : Nat) (text : List Char) :
    Option (List (List String × String × Toml) × List Char) :=
  match bound with
  | 0 => none
  | bound + 1 => do
      let ((path, key), rest) ← key? maxDepth text
      let rest ← exactly? '=' rest
      let (value, rest) ← value? bound depth (skipSpaces rest)
      match skipSpaces rest with
      | ',' :: rest => do
          let (pairs, rest) ← pairs? bound depth rest
          pure ((path, key, value) :: pairs, rest)
      | '}' :: rest => pure ([(path, key, value)], rest)
      | _ => none

end

def statement? (text : List Char) : Option (Statement × List Char) :=
  match text with
  | '[' :: '[' :: rest => do
      let ((path, key), rest) ← key? maxDepth rest
      let rest ← endOfLine? (← exactly? ']' (← exactly? ']' rest))
      pure (.appendTable path key, rest)
  | '[' :: rest => do
      let ((path, key), rest) ← key? maxDepth rest
      let rest ← endOfLine? (← exactly? ']' rest)
      pure (.openTable path key, rest)
  | _ => do
      let ((path, key), rest) ← key? maxDepth text
      let rest ← exactly? '=' rest
      let (value, rest) ← value? (rest.length + 1) maxDepth (skipSpaces rest)
      pure (.assign path key value, ← endOfLine? rest)

def statements? (bound : Nat) (text : List Char) : Option (List Statement) :=
  match bound with
  | 0 => none
  | bound + 1 =>
      match skipTrivia false text with
      | [] => some []
      | start => do
          let (statement, rest) ← statement? start
          pure (statement :: (← statements? bound rest))

/-- Reads a text as a TOML document: its top-level entries. A byte order mark may come first. -/
def parse? (text : String) : Option Entries := do
  let uniform ← uniformBreaks? text.toList
  let body :=
    match uniform with
    | '\ufeff' :: rest => rest
    | _ => uniform
  ofStatements? (← statements? (body.length + 1) body)

end ReleaseAdvisor.Toml
