import ReleaseAdvisor.Commit.Basic
import ReleaseAdvisor.Json.Writer

/-!
# Histories

A history is a list of commits, exchanged as a JSON array. An item is a message, which is split
into header and body, or an object with a `header` and perhaps a `body`, which are taken as they
are. One bad item rejects the whole text.
-/

namespace ReleaseAdvisor

inductive HistoryError where
  | blank
  | malformed
  deriving DecidableEq, Repr

/-- The wording of an error, given what the reader of the text says about it. -/
def HistoryError.message (reason : String) : HistoryError → String
  | .blank => "Commit input error: commit list is empty; expected a JSON array"
  | .malformed => "JSON error: " ++ reason

/-- The wording of the error behind an error, if there is one. -/
def HistoryError.cause? (reason : String) : HistoryError → Option String
  | .blank => none
  | .malformed => some reason

namespace Commit

def ofJson? : Json → Option Commit
  | .string message => some (ofMessage message)
  | .object members =>
      match Json.member members "header", Json.member members "body" with
      | .present (.string header), .missing => some ⟨header, ""⟩
      | .present (.string header), .present (.string body) => some ⟨header, body⟩
      | _, _ => none
  | _ => none

def toJson (commit : Commit) : Json :=
  .object [("header", .string commit.header), ("body", .string commit.body)]

def parseHistory (text : String) : Except HistoryError (List Commit) :=
  if Text.isBlankString text then .error .blank
  else
    match Json.parse? text with
    | some (.array items) =>
        match items.mapM ofJson? with
        | some commits => .ok commits
        | none => .error .malformed
    | _ => .error .malformed

end Commit

end ReleaseAdvisor
