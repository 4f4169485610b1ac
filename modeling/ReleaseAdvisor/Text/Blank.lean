/-!
# Blank characters

The characters of Unicode's `White_Space` property and the two trimmings built on them. Every
reader of the library that skips padding (scopes, descriptor fields, rule scopes, note lines)
uses this one class, so two of them never disagree on what padding is.

Text is handled as a list of characters here; `Text.trimmed` and `Text.isBlankString` are the
forms for strings.
-/

namespace ReleaseAdvisor.Text

/-- A character with Unicode's `White_Space` property (25 code points). -/
def isBlank (character : Char) : Bool :=
  let code := character.toNat
  (9 ≤ code && code ≤ 13) || code == 0x20 || code == 0x85 || code == 0xA0 || code == 0x1680 ||
    (0x2000 ≤ code && code ≤ 0x200A) || code == 0x2028 || code == 0x2029 || code == 0x202F ||
    code == 0x205F || code == 0x3000

def dropEndWhile (drop : Char → Bool) (text : List Char) : List Char :=
  (text.reverse.dropWhile drop).reverse

def trimStart (text : List Char) : List Char :=
  text.dropWhile isBlank

def trim (text : List Char) : List Char :=
  dropEndWhile isBlank (trimStart text)

def trimmed (text : String) : String :=
  String.ofList (trim text.toList)

/-- A string that holds blanks only; the empty string does. -/
def isBlankString (text : String) : Bool :=
  text.toList.all isBlank

end ReleaseAdvisor.Text
