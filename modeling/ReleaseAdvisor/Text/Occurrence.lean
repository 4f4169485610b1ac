/-!
# Occurrences of one text in another
-/

namespace ReleaseAdvisor.Text

/-- Removes the first occurrence of `pattern`; an empty pattern removes nothing. -/
def eraseFirst (pattern : List Char) : List Char → List Char
  | [] => []
  | character :: rest =>
      if pattern.isPrefixOf (character :: rest) then
        (character :: rest).drop pattern.length
      else
        character :: eraseFirst pattern rest

def occursIn (pattern : List Char) : List Char → Bool
  | [] => pattern.isEmpty
  | character :: rest =>
      pattern.isPrefixOf (character :: rest) || occursIn pattern rest

end ReleaseAdvisor.Text
