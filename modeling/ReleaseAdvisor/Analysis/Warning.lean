import ReleaseAdvisor.Analysis.Report

/-!
# Warnings

What a user should know about a report although it is no error: an identity that was inferred, a
history without commits of the module, commits that no rule matched, and commits of which none
causes a release. The last two are only looked for where there are commits.
-/

namespace ReleaseAdvisor

inductive Warning where
  | legacyConfig (module : String)
  | noRelevantCommits (module scope : String)
  | unmatchedCommits (module : String) (count : Nat)
  | noReleaseTriggered (module : String) (relevant : Nat)
  deriving DecidableEq, Repr

namespace Warning

/-- The wording of a warning. -/
def message : Warning → String
  | .legacyConfig module =>
      "Module '" ++ module ++ "' has no descriptor; identity inferred from legacy config"
  | .noRelevantCommits module scope =>
      "No commits with scope '" ++ scope ++ "' for module '" ++ module ++ "'"
  | .unmatchedCommits module count =>
      toString count ++ " commit(s) for module '" ++ module ++ "' matched no release rule"
  | .noReleaseTriggered module relevant =>
      toString relevant ++ " relevant commit(s) for module '" ++ module ++
        "' but none triggers a release"

def ofSource (report : Report) : List Warning :=
  match report.source with
  | .legacy => [.legacyConfig report.identity.name]
  | .descriptor => []

def ofCommits (report : Report) : List Warning :=
  let name := report.identity.name
  let relevant := report.commits.length
  let unmatched := report.commits.countP (·.verdict.matched?.isNone)
  if relevant = 0 then [.noRelevantCommits name report.identity.commitScope]
  else
    (if unmatched = 0 then [] else [.unmatchedCommits name unmatched]) ++
      (if report.decision.isRelease then [] else [.noReleaseTriggered name relevant])

def ofReport (report : Report) : List Warning :=
  ofSource report ++ ofCommits report

end Warning

end ReleaseAdvisor
