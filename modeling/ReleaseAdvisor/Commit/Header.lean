import ReleaseAdvisor.Text.Blank

/-!
# Commit headers

A conventional header reads `type(scope, scope): subject`. The type is a word of ASCII letters,
digits and underscores; the parenthesised scopes may be missing; the subject runs from the first
character after the blanks that follow the colon to the end of that line.

Blanks after the colon are skipped greedily, line feeds included. If nothing but blanks follows,
the subject is the last of them that is not a line feed.
-/

namespace ReleaseAdvisor

structure Header where
  type : String
  scopes : List String
  subject : String
  deriving DecidableEq, Repr

namespace Header

def isTypeCharacter (character : Char) : Bool :=
  character.isAlphanum || character == '_'

/-- The scopes named between the parentheses: the pieces between commas, trimmed, without the
blank ones. -/
def scopesOf (group : List Char) : List String :=
  ((List.splitOn ',' group).map Text.trim).filterMap fun scope =>
    if scope.isEmpty then none else some (String.ofList scope)

/-- Reads the optional scope group; the result is the scopes and the text after the group. -/
def splitGroup? (text : List Char) : Option (List String × List Char) :=
  match text with
  | '(' :: inside =>
      match inside.span (· != ')') with
      | ([], _) => none
      | (_, []) => none
      | (group, _ :: rest) => some (scopesOf group, rest)
  | _ => some ([], text)

/-- The subject in the text after the colon. -/
def subjectOf? (text : List Char) : Option (List Char) :=
  match text.span Text.isBlank with
  | (blanks, []) => (blanks.reverse.find? (· != '\n')).map fun blank => [blank]
  | (_, rest) => some (rest.takeWhile (· != '\n'))

def ofChars? (text : List Char) : Option Header :=
  match text.span isTypeCharacter with
  | ([], _) => none
  | (type, rest) =>
      match splitGroup? rest with
      | some (scopes, ':' :: afterColon) =>
          (subjectOf? afterColon).map fun subject =>
            ⟨String.ofList type, scopes, String.ofList subject⟩
      | _ => none

def parse? (header : String) : Option Header :=
  ofChars? header.toList

end Header

end ReleaseAdvisor
