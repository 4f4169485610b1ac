import ReleaseAdvisor.Commit.Basic
import ReleaseAdvisor.Commit.Header

/-!
# Commits as one module sees them

A commit concerns a module if its header declares the module's scope. The module then sees the
commit with that scope alone, under a header of its own, `type(scope): subject`; the header as
it was written and the body are kept.
-/

namespace ReleaseAdvisor

/-- A commit narrowed to one scope. -/
structure ScopedCommit where
  type : String
  scope : String
  subject : String
  header : String
  writtenHeader : String
  body : String
  deriving DecidableEq, Repr

def Header.narrowed (type scope subject : String) : String :=
  type ++ "(" ++ scope ++ "): " ++ subject

/-- The commit as the module with this scope sees it, if it concerns that module. -/
def Commit.narrow? (commit : Commit) (scope : String) : Option ScopedCommit :=
  match Header.parse? commit.header with
  | some header =>
      if scope ∈ header.scopes then
        some {
          type := header.type
          scope
          subject := header.subject
          header := Header.narrowed header.type scope header.subject
          writtenHeader := commit.header
          body := commit.body }
      else none
  | none => none

def ScopedCommit.select (scope : String) (history : List Commit) : List ScopedCommit :=
  history.filterMap (·.narrow? scope)

end ReleaseAdvisor
