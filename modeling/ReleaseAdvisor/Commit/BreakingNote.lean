import ReleaseAdvisor.Text.Blank
import ReleaseAdvisor.Text.Lines

/-!
# Breaking-change notes

A body announces a breaking change when one of its lines, leading blanks aside, starts with a
keyword and a colon.
-/

namespace ReleaseAdvisor.BreakingNote

def defaultKeywords : List String :=
  ["BREAKING CHANGE", "BREAKING CHANGES"]

/-- Whether a line opens a note under the keyword. -/
def opensWith (keyword : List Char) (line : List Char) : Bool :=
  (keyword ++ [':']).isPrefixOf (Text.trimStart line)

def isIn (body : String) (keywords : List String) : Bool :=
  (Text.lines body.toList).any fun line =>
    keywords.any fun keyword => opensWith keyword.toList line

end ReleaseAdvisor.BreakingNote
