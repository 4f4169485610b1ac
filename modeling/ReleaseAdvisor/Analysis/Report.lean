import ReleaseAdvisor.Module.Resolution

/-!
# Analysing modules

A module's report narrows a history to the commits of the module, gives each the verdict of the
module's rules, and decides for the most severe level. Analysing several directories gives one
outcome for each, in their order; one that does not resolve does not disturb the others.
-/

namespace ReleaseAdvisor

structure JudgedCommit where
  commit : ScopedCommit
  verdict : Verdict
  deriving DecidableEq, Repr

structure Report where
  directory : Path
  identity : Identity
  source : ConfigSource
  decision : Level
  commits : List JudgedCommit
  deriving DecidableEq, Repr

structure Outcome where
  directory : Path
  result : Except ConfigError Report

def Report.notes (report : Report) : List LogNote :=
  LogNote.ofIdentity report.directory report.identity report.source

/-- What the log was told on the way to an outcome. A refusal is not noted. -/
def Outcome.notes (outcome : Outcome) : List LogNote :=
  match outcome.result with
  | .ok report => report.notes
  | .error _ => []

/-- The commits of a history that concern a scope, with the verdicts of a rule set. -/
def RuleSet.judge (rules : RuleSet) (scope : String) (history : List Commit) :
    List JudgedCommit :=
  (ScopedCommit.select scope history).map fun commit => ⟨commit, rules.classify commit⟩

def JudgedCommit.decide (commits : List JudgedCommit) : Level :=
  Level.highest (commits.map (·.verdict.level))

namespace Module

def analyze (module : Module) (history : List Commit) : Report :=
  let commits := module.rules.judge module.identity.commitScope history
  ⟨module.directory, module.identity, module.source, JudgedCommit.decide commits, commits⟩

/-- The outcome for one directory, with the cache after it. -/
def outcome (files : FileSystem) (settings : Settings) (history : List Commit)
    (cache : LegacyCache) (directory : Path) : Outcome × LegacyCache :=
  let (module, cache) := resolve files settings cache directory
  (⟨directory, module.map (·.analyze history)⟩, cache)

/-- The outcomes for some directories, with the cache after them. -/
def analyzeAll (files : FileSystem) (settings : Settings) (history : List Commit) :
    LegacyCache → List Path → List Outcome × LegacyCache
  | cache, [] => ([], cache)
  | cache, directory :: rest =>
      let (first, cache) := outcome files settings history cache directory
      let (others, cache) := analyzeAll files settings history cache rest
      (first :: others, cache)

end Module

end ReleaseAdvisor
