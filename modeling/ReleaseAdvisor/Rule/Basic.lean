import ReleaseAdvisor.Commit.BreakingNote
import ReleaseAdvisor.Commit.Scoped
import ReleaseAdvisor.Level

/-!
# Release rules

A rule gives a level to the commits that satisfy its predicates. Each predicate may be missing;
a rule without any matches every commit. A rule with level `none` settles that its commits cause
no release.
-/

namespace ReleaseAdvisor

/-- The scopes a rule admits: one of them, or all but one. -/
inductive ScopePattern where
  | is (scope : String)
  | isNot (scope : String)
  deriving DecidableEq, Repr

namespace ScopePattern

/-- Reads a pattern; one leading exclamation mark negates the rest. -/
def parse (text : String) : ScopePattern :=
  match text.toList with
  | '!' :: scope => .isNot (String.ofList scope)
  | _ => .is text

def admits : ScopePattern → String → Bool
  | .is scope, candidate => candidate == scope
  | .isNot scope, candidate => candidate != scope

def positive? : ScopePattern → Option String
  | .is scope => some scope
  | .isNot _ => none

end ScopePattern

structure Rule where
  scope? : Option ScopePattern
  type? : Option String
  breaking : Bool
  level : Level
  deriving DecidableEq, Repr

/-- Whether a rule matches a commit; `keywords` are those that announce a breaking change. -/
def Rule.admits (rule : Rule) (keywords : List String) (commit : ScopedCommit) : Bool :=
  rule.scope?.all (·.admits commit.scope) &&
    rule.type?.all (· == commit.type) &&
    (!rule.breaking || BreakingNote.isIn commit.body keywords)

end ReleaseAdvisor
