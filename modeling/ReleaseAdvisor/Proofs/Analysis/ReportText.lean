import Mathlib.Data.List.Forall2
import ReleaseAdvisor.CommandLine.Run
import ReleaseAdvisor.Proofs.Json.RoundTrip
import ReleaseAdvisor.Proofs.Rule.Checking

/-!
# Printed reports

What the analysis prints as JSON says everything that it found. The readers below take a record
apart by the names of its members, wherever these stand: a commit without `body` has the empty one
and a commit without `matched_rule` was matched by none. Each of them undoes the writer of its
record, so the printed text can be read back into the reports and the failures that it shows, and
two analyses that print the same text found the same.

A failure shows its directory and its message. Errors of different kinds could have one wording, so
an outcome is compared by what it shows.

All of this asks that the directories are text. The writer has no way to put another path into JSON,
so one such directory is enough for nothing to be printed, and the outcomes of the other directories
are lost with it.
-/

namespace ReleaseAdvisor

/-! ## Readers of records -/

namespace Json

variable {α : Type}

def text? : Json → Option String
  | .string text => some text
  | _ => none

def nat? : Json → Option Nat
  | .number ⟨false, whole, [], 0⟩ => some whole
  | _ => none

def items? (decode? : Json → Option α) : Json → Option (List α)
  | .array items => items.mapM decode?
  | _ => none

def required? (members : List (String × Json)) (name : String) (decode? : Json → Option α) :
    Option α :=
  match member members name with
  | .present value => decode? value
  | .missing | .repeated => none

/-- A member that may be missing. -/
def optional? (members : List (String × Json)) (name : String) (decode? : Json → Option α) :
    Option (Option α) :=
  match member members name with
  | .missing => some none
  | .present value => (decode? value).map some
  | .repeated => none

end Json

def ConfigSource.ofName? (name : String) : Option ConfigSource :=
  [ConfigSource.descriptor, .legacy].find? (·.name == name)

def Identity.ofJson? : Json → Option Identity
  | .object members => do
      let name ← Json.required? members "name" Json.text?
      let title ← Json.required? members "title" Json.text?
      let commitScope ← Json.required? members "commit_scope" Json.text?
      let tagPrefix ← Json.required? members "tag_prefix" Json.text?
      pure { name, title, commitScope, tagPrefix }
  | _ => none

def ScopedCommit.ofMembers? (members : List (String × Json)) : Option ScopedCommit := do
  let type ← Json.required? members "type" Json.text?
  let scope ← Json.required? members "scope" Json.text?
  let subject ← Json.required? members "subject" Json.text?
  let header ← Json.required? members "header" Json.text?
  let writtenHeader ← Json.required? members "original_header" Json.text?
  let body ← Json.optional? members "body" Json.text?
  pure { type, scope, subject, header, writtenHeader, body := body.getD "" }

def JudgedCommit.ofJson? : Json → Option JudgedCommit
  | .object members => do
      let commit ← ScopedCommit.ofMembers? members
      let decision ← Json.required? members "decision" Json.text?
      let level ← Level.ofName? decision
      let matched? ← Json.optional? members "matched_rule" Json.nat?
      pure ⟨commit, level, matched?⟩
  | _ => none

def Report.ofJson? : Json → Option Report
  | .object members => do
      let directory ← Json.required? members "dir" Json.text?
      let identity ← Json.required? members "module" Identity.ofJson?
      let source ← Json.required? members "source" Json.text?
      let source ← ConfigSource.ofName? source
      let decision ← Json.required? members "decision" Json.text?
      let decision ← Level.ofName? decision
      let commits ← Json.required? members "commits" (Json.items? JudgedCommit.ofJson?)
      pure { directory := ⟨directory⟩, identity, source, decision, commits }
  | _ => none

/-! ## Each reader undoes its writer -/

theorem ConfigSource.ofName?_name (source : ConfigSource) : ofName? source.name = some source := by
  cases source <;> rfl

theorem Identity.ofJson?_toJson (identity : Identity) : ofJson? identity.toJson = some identity :=
  rfl

theorem JudgedCommit.ofJson?_toJson (judged : JudgedCommit) :
    ofJson? judged.toJson = some judged := by
  rcases judged with ⟨⟨type, scope, subject, header, writtenHeader, body⟩, level, matched?⟩
  have levelRead : Level.ofName? level.name = some level := Level.ofName?_eq_some_iff.mpr rfl
  -- The two members that may be left out make four different records.
  by_cases empty : body = ""
  · subst body
    cases matched? <;>
      simp [toJson, ofJson?, ScopedCommit.ofMembers?, Json.required?, Json.optional?, Json.member,
        Json.text?, Json.nat?, Json.Number.ofNat, levelRead]
  · have nonempty : body.isEmpty = false := by
      simpa using empty
    cases matched? <;>
      simp [toJson, nonempty, ofJson?, ScopedCommit.ofMembers?, Json.required?, Json.optional?,
        Json.member, Json.text?, Json.nat?, Json.Number.ofNat, levelRead]

theorem Report.ofJson?_toJson (report : Report) : ofJson? report.toJson = some report := by
  rcases report with ⟨directory, identity, source, decision, commits⟩
  have commitsRead := Json.mapM_map_of_reads JudgedCommit.ofJson?_toJson commits
  have sourceRead := ConfigSource.ofName?_name source
  have decisionRead : Level.ofName? decision.name = some decision :=
    Level.ofName?_eq_some_iff.mpr rfl
  simp [toJson, ofJson?, Json.required?, Json.member, Json.text?, Json.items?, commitsRead,
    sourceRead, decisionRead, Identity.ofJson?_toJson]

/-! ## Outcomes -/

namespace Outcome

variable (refusals : Refusals)

/-- What an outcome shows: its report, or the directory that failed and why. -/
def shown (outcome : Outcome) : Except (Path × String) Report :=
  outcome.result.mapError fun error => (outcome.directory, error.message refusals)

def shownOfJson? : Json → Option (Except (Path × String) Report)
  | .object members => do
      match ← Json.optional? members "error" Json.text? with
      | none => (Report.ofJson? (.object members)).map .ok
      | some message =>
          let directory ← Json.required? members "dir" Json.text?
          pure (.error (⟨directory⟩, message))
  | _ => none

/-- Reads a printed list of outcomes. -/
def listOfText? (text : String) : Option (List (Except (Path × String) Report)) :=
  (Json.read? text).bind (Json.items? shownOfJson?)

/-- What one printed item says of its outcome. -/
structure PrintedAs (outcome : Outcome) (item : Json) : Prop where
  report : ∀ report, outcome.result = .ok report →
    ∃ members, item = .object members ∧ Report.ofJson? item = some report
  failure : ∀ error, outcome.result = .error error →
    item = .object
      [("dir", .string outcome.directory.text), ("error", .string (error.message refusals))]

theorem printedAs_toJson (outcome : Outcome) :
    outcome.PrintedAs refusals (outcome.toJson refusals) := by
  rcases outcome with ⟨directory, result⟩
  constructor
  · rintro report rfl
    exact ⟨_, rfl, Report.ofJson?_toJson report⟩
  · rintro error rfl
    rfl

end Outcome

namespace CommandLine

/-- All outcomes have directories that are text. -/
def Surroundings.CanWrite (surroundings : Surroundings) (outcomes : List Outcome) : Prop :=
  ∀ outcome ∈ outcomes, ¬surroundings.isForeign outcome

section Encoding

variable {surroundings : Surroundings} {outcomes : List Outcome}

theorem encodeOutcomes_of_canWrite (writable : surroundings.CanWrite outcomes) :
    encodeOutcomes surroundings outcomes =
      ⟨if outcomes.all succeeded then 0 else 1,
        (Json.array (outcomes.map (·.toJson surroundings.words.refusals))).toText ++ "\n", ""⟩ := by
  have noneFound := List.find?_eq_none.mpr writable
  rw [encodeOutcomes, noneFound]
  rfl

theorem out_encodeOutcomes_of_canWrite (writable : surroundings.CanWrite outcomes) :
    (encodeOutcomes surroundings outcomes).out =
      (Json.array (outcomes.map (·.toJson surroundings.words.refusals))).toText ++ "\n" :=
  congrArg (·.out) (encodeOutcomes_of_canWrite writable)

/-- The first foreign directory decides, and what comes after it does not matter. -/
theorem encodeOutcomes_of_foreign {before after : List Outcome} {outcome : Outcome}
    (writable : surroundings.CanWrite before)
    (foreign : surroundings.isForeign outcome) :
    encodeOutcomes surroundings (before ++ outcome :: after) =
      if succeeded outcome then failed [surroundings.words.foreignPath]
      else ⟨101, "", surroundings.words.broken⟩ := by
  have noneFound := List.find?_eq_none.mpr writable
  rw [encodeOutcomes, List.find?_append, noneFound, Option.none_or, List.find?_cons_of_pos foreign]

theorem read?_encodeOutcomes (writable : surroundings.CanWrite outcomes) :
    Json.read? (encodeOutcomes surroundings outcomes).out =
      some (.array (outcomes.map (·.toJson surroundings.words.refusals))) := by
  rw [out_encodeOutcomes_of_canWrite writable, Json.read?_toText_ended]

theorem forall₂_printedAs (refusals : Refusals) (outcomes : List Outcome) :
    List.Forall₂ (Outcome.PrintedAs refusals) outcomes (outcomes.map (·.toJson refusals)) := by
  apply List.forall₂_map_right_iff.mpr
  apply List.forall₂_same.mpr
  intro outcome _
  exact outcome.printedAs_toJson refusals

end Encoding

end CommandLine

end ReleaseAdvisor
