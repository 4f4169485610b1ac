import ReleaseAdvisor.Text.Blank

/-!
# Commits

A commit is its header line and its body. `Commit.ofMessage` splits a whole message at the first
line feed; carriage returns around the split and blank lines before the body belong to neither
part. A message of one line is all header and is kept as it stands.
-/

namespace ReleaseAdvisor

structure Commit where
  header : String
  body : String
  deriving DecidableEq, Repr

namespace Commit

/-- Carriage returns and line feeds, the characters that separate a header from its body. -/
def isLineBreak (character : Char) : Bool :=
  character == '\r' || character == '\n'

/-- Splits a message into the part before its first line feed and the part after it. -/
def splitMessage (message : List Char) : List Char × List Char :=
  match message.span (· != '\n') with
  | (header, []) => (header, [])
  | (header, _ :: body) =>
      (Text.dropEndWhile (· == '\r') header, body.dropWhile isLineBreak)

def ofMessage (message : String) : Commit :=
  let (header, body) := splitMessage message.toList
  ⟨String.ofList header, String.ofList body⟩

end Commit

end ReleaseAdvisor
