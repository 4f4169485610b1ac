/-!
# Paths

A path is kept as it is written, because messages and reports show it that way. Two paths name
the same place for the library when their components agree: repeated and trailing slashes do not
count, nor does a dot other than one at the very start. Two dots are a component like any other.

A path may have bytes that are no text. It is then shown with replacement characters in their place,
and `ForeignPaths` tells it from a path that has such characters of its own.
-/

namespace ReleaseAdvisor

/-- A path as it is written, with `/` between its parts. -/
structure Path where
  text : String
  deriving DecidableEq, Repr

namespace Path

def pieces (path : Path) : List String :=
  (List.splitOn '/' path.text.toList).map String.ofList

/-- The components by which paths are compared; a leading slash is a component of its own. -/
def components (path : Path) : List String :=
  let named := fun (piece : String) => !piece.isEmpty && piece != "."
  match path.pieces with
  | [] => []
  | [""] => []
  | first :: rest =>
      let root := if first.isEmpty then "/" else first
      root :: rest.filter named

/-- Whether two paths name the same place. -/
def same (left right : Path) : Bool :=
  left.components == right.components

def isAbsolute (path : Path) : Bool :=
  path.text.toList.head? == some '/'

/-- A name below a directory. A slash is added unless the directory ends in one or is empty; an
absolute name replaces the directory. -/
def join (directory : Path) (name : String) : Path :=
  if isAbsolute ⟨name⟩ || directory.text.isEmpty then ⟨name⟩
  else if directory.text.toList.getLast? == some '/' then ⟨directory.text ++ name⟩
  else ⟨directory.text ++ "/" ++ name⟩

/-- The name of the place itself: the last component, unless it is a root or consists of dots
that stand for another directory. -/
def name? (path : Path) : Option String :=
  match path.components.getLast? with
  | some name => if name ∈ ["/", ".", ".."] then none else some name
  | none => none

end Path

/-- The paths that are not text. Only a path shown with a replacement character can be one. -/
structure ForeignPaths where
  contains : Path → Bool
  replaced : ∀ path, contains path → '\ufffd' ∈ path.text.toList

namespace ForeignPaths

theorem not_contains_of_not_replaced (foreign : ForeignPaths) {path : Path}
    (shown : '\ufffd' ∉ path.text.toList) : ¬foreign.contains path :=
  mt (foreign.replaced path) shown

def none : ForeignPaths :=
  ⟨fun _ => false, by simp⟩

/-- Every path that is shown with a replacement character. -/
def allReplaced : ForeignPaths :=
  ⟨fun path => path.text.toList.contains '\ufffd', by simp⟩

end ForeignPaths

end ReleaseAdvisor
