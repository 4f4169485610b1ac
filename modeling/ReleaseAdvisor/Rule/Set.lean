import ReleaseAdvisor.Rule.Basic

/-!
# Rule sets

A rule set is a list of rules with the keywords that announce a breaking change. The first rule
that matches a commit decides it, so the order of the rules matters.
-/

namespace ReleaseAdvisor

/-- Rules in order of precedence and the keywords they read breaking-change notes with. -/
structure RuleSet where
  rules : List Rule
  keywords : List String
  deriving DecidableEq, Repr

/-- What a rule set says about one commit: its level, and which rule decided it. -/
structure Verdict where
  level : Level
  matched? : Option Nat
  deriving DecidableEq, Repr

namespace RuleSet

def ofRules (rules : List Rule) : RuleSet :=
  ⟨rules, BreakingNote.defaultKeywords⟩

/-- The rule set under other keywords; an empty list leaves the present ones in force. -/
def withKeywords (ruleSet : RuleSet) (keywords : List String) : RuleSet :=
  if keywords.isEmpty then ruleSet else { ruleSet with keywords }

/-- The verdict on a commit: that of the first matching rule, and no release if none matches. -/
def classify (ruleSet : RuleSet) (commit : ScopedCommit) : Verdict :=
  match ruleSet.rules.findIdx? (·.admits ruleSet.keywords commit) with
  | some index => ⟨(ruleSet.rules[index]?.map (·.level)).getD .none, some index⟩
  | none => ⟨.none, none⟩

def firstPositiveScope? (ruleSet : RuleSet) : Option String :=
  ruleSet.rules.findSome? fun rule => rule.scope?.bind (·.positive?)

/-- The rules of a module that declares none: a breaking change is major, a feature minor, the
usual maintenance types are patches, and other scopes cause no release. -/
def standard (scope : String) : RuleSet :=
  let own := some (ScopePattern.parse scope)
  ofRules <|
    [⟨own, none, true, .major⟩, ⟨own, some "feat", false, .minor⟩] ++
      ["fix", "perf", "revert", "docs", "refactor"].map (⟨own, some ·, false, .patch⟩) ++
      [⟨some (ScopePattern.parse ("!" ++ scope)), none, false, .none⟩]

end RuleSet

end ReleaseAdvisor
