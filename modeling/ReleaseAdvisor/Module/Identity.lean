import ReleaseAdvisor.Text.Uppercase

/-!
# Module identities

A module is known by four values. Its title may be made from its name: words are split at
underscores and hyphens, start with an upper-case letter and are joined by spaces.
-/

namespace ReleaseAdvisor

/-- What a module is called, which commits are its own and how its releases are tagged. -/
structure Identity where
  name : String
  title : String
  commitScope : String
  tagPrefix : String
  deriving DecidableEq, Repr

namespace Identity

def isWordSeparator (character : Char) : Bool :=
  character == '_' || character == '-'

def capitalized : List Char → List Char
  | [] => []
  | first :: rest => Text.upperCase first ++ rest

def wordsOf (name : List Char) : List (List Char) :=
  (List.splitOnP isWordSeparator name).filter (!·.isEmpty)

def titleChars (name : List Char) : List Char :=
  [' '].intercalate ((wordsOf name).map capitalized)

def titleOf (name : String) : String :=
  String.ofList (titleChars name.toList)

end Identity

end ReleaseAdvisor
