import ReleaseAdvisor.Files.System

/-!
# File trees

A file system held as a value: a working directory and all below it. Looking up a path walks it
piece by piece. A dot and an empty piece stay where they are, two dots go up, and each piece,
those included, needs a directory to start from. The directories above the working directory and
the root of all paths are there too, but nothing else outside the tree is: they have no entries.
A name or a path that is too long is refused where it is looked up, and so is a NUL character.

Files and directories are put at a path the way it is walked, so every directory on the way is
created, also one that two dots leave again. Nothing is put outside the tree: an absolute path and
one that goes above the working directory lead to no place in it.
-/

namespace ReleaseAdvisor

inductive FileNode where
  | file (content : FileContent)
  | directory (entries : List (String × FileNode))

structure FileTree where
  entries : List (String × FileNode)

namespace FileNode

def maxNameBytes : Nat :=
  255

def outside : FileNode :=
  .directory []

/-- Walks the pieces of a path from a node; `above` holds the directories of the tree over it,
nearest first. -/
def walk (above : List FileNode) (here : FileNode) : List String → Except FileError FileNode
  | [] => .ok here
  | piece :: rest =>
      match here with
      | .file _ => .error .notADirectory
      | .directory entries =>
          if piece = "" ∨ piece = "." then walk above here rest
          else if piece = ".." then
            match above with
            | [] => walk [] outside rest
            | parent :: higher => walk higher parent rest
          else if piece.utf8ByteSize > maxNameBytes then .error .nameTooLong
          else
            match entries.lookup piece with
            | none => .error .notFound
            | some child => walk (here :: above) child rest

def toEntry : FileNode → FileEntry
  | .file content => .file content
  | .directory entries => .directory (entries.map (·.1))

/-- Replaces the entry with a name, or removes it. -/
def setEntry (name : String) (child? : Option FileNode) (entries : List (String × FileNode)) :
    List (String × FileNode) :=
  entries.filter (·.1 != name) ++ (child?.map fun child => (name, child)).toList

/-- Changes what stands below a node at the end of a list of names. Directories on the way that
are missing are created; a file on the way is left alone. -/
def change (update : Option FileNode → Option FileNode) :
    List String → Option FileNode → Option FileNode
  | [], here => update here
  | name :: rest, some (.directory entries) =>
      some (.directory (setEntry name (change update rest (entries.lookup name)) entries))
  | name :: rest, none =>
      (change update rest none).map fun child => .directory [(name, child)]
  | _ :: _, some (.file content) => some (.file content)

end FileNode

namespace FileTree

def empty : FileTree :=
  ⟨[]⟩

def maxPathBytes : Nat :=
  4095

def toFileSystem (tree : FileTree) : FileSystem where
  entry path :=
    if path.text.toList.contains '\x00' then .error .containsNul
    else if path.text.isEmpty then .error .notFound
    else if path.text.utf8ByteSize > maxPathBytes then .error .nameTooLong
    else
      let start := if path.isAbsolute then FileNode.outside else .directory tree.entries
      (FileNode.walk [] start path.pieces).map (·.toEntry)

/-- Changes what stands at a place of the tree, which is told by the names that lead there. -/
def changeAt (tree : FileTree) (place? : Option (List String))
    (update : Option FileNode → Option FileNode) : FileTree :=
  match place? with
  | none => tree
  | some names =>
      match FileNode.change update names (some (.directory tree.entries)) with
      | some (.directory entries) => ⟨entries⟩
      | _ => tree

/-- Where a walk of a path starts. -/
def start? (path : Path) : Option (List String) :=
  if path.isAbsolute then none else some []

/-- The next place of a walk. From outside the tree there is no way back into it. -/
def next? (place? : Option (List String)) (piece : String) : Option (List String) :=
  place?.bind fun names =>
    if piece = "" ∨ piece = "." then some names
    else if piece = ".." then if names.isEmpty then none else some names.dropLast
    else some (names ++ [piece])

/-- Goes on with a walk, and creates a directory at the next place if nothing is there. -/
def enter (walked : FileTree × Option (List String)) (piece : String) :
    FileTree × Option (List String) :=
  let place? := next? walked.2 piece
  (walked.1.changeAt place? fun
    | some node => some node
    | none => some (.directory []), place?)

/-- Makes sure that a directory stands at a path; a file that stands there stays. -/
def makeDirectory (tree : FileTree) (path : Path) : FileTree :=
  (path.pieces.foldl enter (tree, start? path)).1

/-- Puts a file at a path that ends in a name, creating the directories on the way. -/
def write (tree : FileTree) (path : Path) (content : FileContent) : FileTree :=
  let (tree, place?) := path.pieces.dropLast.foldl enter (tree, start? path)
  tree.changeAt (next? place? (path.pieces.getLast?.getD "")) fun _ => some (.file content)

def remove (tree : FileTree) (path : Path) : FileTree :=
  if tree.toFileSystem.present path then
    tree.changeAt (path.pieces.foldl next? (start? path)) fun _ => none
  else tree

end FileTree

end ReleaseAdvisor
