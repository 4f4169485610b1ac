import ReleaseAdvisor.Files.Path

/-!
# File systems

All that the library ever asks of a file system is what stands at a path, so a `FileSystem` is
the answer to that question. The operations below are the few questions built on it.

A file's content is its text, or the reason why it has none for a reader: a file may be there and
still not be opened, or hold bytes that are no text. Nothing else about its bytes matters.
-/

namespace ReleaseAdvisor

inductive FileError where
  | notFound
  | notADirectory
  | isADirectory
  | notText
  | nameTooLong
  | containsNul
  | denied
  | other (message : String)
  deriving DecidableEq, Repr

def FileError.message : FileError → String
  | .notFound => "No such file or directory (os error 2)"
  | .notADirectory => "Not a directory (os error 20)"
  | .isADirectory => "Is a directory (os error 21)"
  | .notText => "stream did not contain valid UTF-8"
  | .nameTooLong => "File name too long (os error 36)"
  | .containsNul => "file name contained an unexpected NUL byte"
  | .denied => "Permission denied (os error 13)"
  | .other message => message

inductive FileContent where
  | text (value : String)
  | unreadable (error : FileError)
  deriving DecidableEq, Repr

namespace FileContent

/-- The content of a file that can be opened but is not text. -/
def binary : FileContent :=
  .unreadable .notText

def read : FileContent → Except FileError String
  | .text value => .ok value
  | .unreadable error => .error error

theorem read_eq_ok_iff {content : FileContent} {value : String} :
    content.read = .ok value ↔ content = .text value := by
  cases content <;> simp [read]

end FileContent

/-- What stands at a path: a file, or a directory with the names of its entries in some order. -/
inductive FileEntry where
  | file (content : FileContent)
  | directory (names : List String)
  deriving DecidableEq, Repr

/-- A file system, seen from the working directory. -/
structure FileSystem where
  entry : Path → Except FileError FileEntry

namespace FileSystem

def present (files : FileSystem) (path : Path) : Bool :=
  match files.entry path with
  | .ok _ => true
  | .error _ => false

def isFile (files : FileSystem) (path : Path) : Bool :=
  match files.entry path with
  | .ok (.file _) => true
  | _ => false

def isDirectory (files : FileSystem) (path : Path) : Bool :=
  match files.entry path with
  | .ok (.directory _) => true
  | _ => false

def read (files : FileSystem) (path : Path) : Except FileError String :=
  match files.entry path with
  | .ok (.file content) => content.read
  | .ok (.directory _) => .error .isADirectory
  | .error error => .error error

def list (files : FileSystem) (path : Path) : Except FileError (List String) :=
  match files.entry path with
  | .ok (.directory names) => .ok names
  | .ok (.file _) => .error .notADirectory
  | .error error => .error error

end FileSystem

end ReleaseAdvisor
