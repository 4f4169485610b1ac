import ReleaseAdvisor.Module.Error
import ReleaseAdvisor.Module.Resolution

/-!
# Words from elsewhere

Not all that a command prints is worded by this library. The readers of documents say themselves
why they refuse one, the log gives its notes a form with times and colours, and the platform has
words of its own for a run that breaks off. A command is handed all these, and what it prints beside
them does not depend on them.
-/

namespace ReleaseAdvisor.CommandLine

/-- How the log shows the notes of a run, in which order and with which marks. It may be switched
off, but it has nothing to show where it is told nothing. -/
structure Log where
  text : List LogNote → String
  text_nil : text [] = ""

def Log.off : Log :=
  ⟨fun _ => "", rfl⟩

structure Wording where
  refusals : Refusals
  settingsRefusal : String
  historyRefusal : String
  /-- What the writer of JSON says about a path that is not text. -/
  foreignPath : String
  /-- What is said about a run that breaks off. -/
  broken : String
  log : Log

/-- Words that say no more than which kind of document was refused, without a log. -/
def Wording.brief : Wording where
  refusals := {
    descriptor := fun _ => "not a descriptor document"
    legacy := fun _ part =>
      match part with
      | .document => "not a legacy document"
      | .options => "not usable" }
  settingsRefusal := "not a settings document"
  historyRefusal := "not a JSON array of commits"
  foreignPath := "path contains invalid UTF-8 characters"
  broken := "a path that is not text broke off the run\n"
  log := .off

end ReleaseAdvisor.CommandLine
