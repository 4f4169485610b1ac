import ReleaseAdvisor.Analysis.Report

/-!
# Reports as JSON

The members of every object stand in ascending order of their names. A commit without a body has
no `body`, and one that no rule matched has no `matched_rule`.
-/

namespace ReleaseAdvisor

def Identity.toJson (identity : Identity) : Json :=
  .object [
    ("commit_scope", .string identity.commitScope),
    ("name", .string identity.name),
    ("tag_prefix", .string identity.tagPrefix),
    ("title", .string identity.title)]

def JudgedCommit.toJson (judged : JudgedCommit) : Json :=
  let commit := judged.commit
  .object <|
    (if commit.body.isEmpty then [] else [("body", .string commit.body)]) ++
      [("decision", .string judged.verdict.level.name), ("header", .string commit.header)] ++
      (judged.verdict.matched?.map fun index =>
        ("matched_rule", Json.number (.ofNat index))).toList ++
      [("original_header", .string commit.writtenHeader), ("scope", .string commit.scope),
        ("subject", .string commit.subject), ("type", .string commit.type)]

def Report.toJson (report : Report) : Json :=
  .object [
    ("commits", .array (report.commits.map (·.toJson))),
    ("decision", .string report.decision.name),
    ("dir", .string report.directory.text),
    ("module", report.identity.toJson),
    ("source", .string report.source.name)]

/-- The directory that an outcome is written with. -/
def Outcome.writtenDirectory (outcome : Outcome) : Path :=
  match outcome.result with
  | .ok report => report.directory
  | .error _ => outcome.directory

def Outcome.toJson (refusals : Refusals) (outcome : Outcome) : Json :=
  match outcome.result with
  | .ok report => report.toJson
  | .error error =>
      .object [("dir", .string outcome.directory.text), ("error", .string (error.message refusals))]

end ReleaseAdvisor
