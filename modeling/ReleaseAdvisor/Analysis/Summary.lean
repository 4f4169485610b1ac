import ReleaseAdvisor.Analysis.Report

/-!
# Report summaries

The text that shows a report to a person: a heading line, then one line for each of the first ten
commits, then the number of the others if there are any. A commit line ends with the header as it
was written where that differs from the one shown.

Colours are escape sequences around the title and the decision; without colours both are plain.
-/

namespace ReleaseAdvisor

namespace Report

def listedCommits : Nat :=
  10

def styled (color : Bool) (codes : List String) (text : String) : String :=
  if color then
    String.join (codes.map fun code => "\x1b[" ++ code ++ "m") ++ text ++ "\x1b[0m"
  else text

/-- The style of a level: red, yellow or green and bold, or dim for none. -/
def levelStyle : Level → List String
  | .major => ["31", "1"]
  | .minor => ["33", "1"]
  | .patch => ["32", "1"]
  | .none => ["2"]

def heading (report : Report) (color : Bool) : String :=
  let identity := report.identity
  styled color ["1"] identity.title ++ " (" ++ identity.commitScope ++ ", tag prefix " ++
    identity.tagPrefix ++ "): " ++ styled color (levelStyle report.decision) report.decision.name

def commitLine (judged : JudgedCommit) : String :=
  let commit := judged.commit
  "  [" ++ judged.verdict.level.name ++ "] " ++ commit.header ++
    if commit.writtenHeader = commit.header then ""
    else " (from: " ++ commit.writtenHeader ++ ")"

def summaryLines (report : Report) (color : Bool) : List String :=
  heading report color :: (report.commits.take listedCommits).map commitLine ++
    if report.commits.length > listedCommits then
      ["  ... and " ++ toString (report.commits.length - listedCommits) ++ " more commits"]
    else []

def summary (report : Report) (color : Bool) : String :=
  String.join ((report.summaryLines color).map (· ++ "\n"))

end Report

end ReleaseAdvisor
