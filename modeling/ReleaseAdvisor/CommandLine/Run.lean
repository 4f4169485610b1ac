import ReleaseAdvisor.Analysis.Encode
import ReleaseAdvisor.Analysis.Summary
import ReleaseAdvisor.Analysis.Warning
import ReleaseAdvisor.CommandLine.Help
import ReleaseAdvisor.CommandLine.Wording
import ReleaseAdvisor.Commit.History
import ReleaseAdvisor.Text.ControlSequence

/-!
# Running commands

What each command prints and with which code it ends, as a function of its surroundings. The
outer program only supplies those surroundings and carries the result out.

A fatal error is shown on the error stream: the error and the errors behind it, joined by colons. An
error that already shows the error behind it is followed by that text once more. What the log shows
of the modules that a command resolves stands on the error stream too, before all else.
-/

namespace ReleaseAdvisor.CommandLine

/-- What a command leaves behind. -/
structure Output where
  code : Nat
  out : String
  err : String
  deriving DecidableEq, Repr

/-- What a command can see: files, the directory of the user's configuration, and its input. Beside
these it is told which paths are not text, and the words that it takes from elsewhere. -/
structure Surroundings where
  files : FileSystem
  userDirectory? : Option Path
  input : FileContent
  foreign : ForeignPaths
  words : Wording

def line (text : String) : String :=
  text ++ "\n"

def failed (chain : List String) : Output :=
  ⟨1, "", line ("ERROR: " ++ ": ".intercalate chain)⟩

inductive CommitsError where
  | unreadable (error : FileError)
  | history (error : HistoryError)
  deriving DecidableEq, Repr

def CommitsError.chain (reason : String) : CommitsError → List String
  | .unreadable error => ["I/O error: " ++ error.message, error.message]
  | .history error => error.message reason :: (error.cause? reason).toList

/-- Reads the text that a path stands for; a dash stands for the input. -/
def readSource (surroundings : Surroundings) (path : Path) : Except FileError String :=
  if path.same ⟨"-"⟩ then surroundings.input.read else surroundings.files.read path

def readCommits (surroundings : Surroundings) (path : Path) :
    Except CommitsError (List Commit) :=
  match readSource surroundings path with
  | .error error => .error (.unreadable error)
  | .ok text =>
      match Commit.parseHistory text with
      | .error error => .error (.history error)
      | .ok history => .ok history

def discover (surroundings : Surroundings) (settings : Settings) (root : Path) :
    Except (List String) (List Path) :=
  (Module.discover surroundings.files settings root).mapError fun error =>
    ["Failed to list modules in " ++ root.text, error.message]

def configJson (module : Module) : Json :=
  let identity := module.identity
  .object [
    ("commit_scope", .string identity.commitScope),
    ("name", .string identity.name),
    ("source", .string module.source.name),
    ("tag_prefix", .string identity.tagPrefix),
    ("title", .string identity.title)]

def runConfig (surroundings : Surroundings) (settings : Settings) (directory : Path) : Output :=
  match (Module.resolve surroundings.files settings .empty directory).1 with
  | .ok module => ⟨0, line (configJson module).toLine, surroundings.words.log.text module.notes⟩
  | .error error => failed (error.message surroundings.words.refusals :: error.cause?.toList)

def runModules (surroundings : Surroundings) (settings : Settings) (root : Path) : Output :=
  match discover surroundings settings root with
  | .error chain => failed chain
  | .ok [] => ⟨0, line ("→ No modules found in " ++ root.text), ""⟩
  | .ok directories =>
      ⟨0, line "Modules:" ++ String.join (directories.map fun path => line ("  - " ++ path.text)),
        ""⟩

def succeeded (outcome : Outcome) : Bool :=
  match outcome.result with
  | .ok _ => true
  | .error _ => false

def outcomeOut (outcome : Outcome) : String :=
  match outcome.result with
  | .ok report => report.summary false
  | .error _ => ""

def outcomeErr (refusals : Refusals) (outcome : Outcome) : String :=
  match outcome.result with
  | .ok report =>
      String.join ((Warning.ofReport report).map fun warning =>
        line ("⚠ WARNING: " ++ warning.message))
  | .error error =>
      line ("ERROR: " ++ outcome.directory.text ++ ": " ++ error.message refusals)

/-- Outcomes as text. The line at the end counts the modules that were analysed, and stands there
only if they are all. -/
def showOutcomes (refusals : Refusals) (outcomes : List Outcome) : Output :=
  let analyzed := outcomes.countP succeeded
  ⟨if outcomes.all succeeded then 0 else 1,
    String.join (outcomes.map outcomeOut) ++
      (if analyzed = outcomes.length then
        line ("✓ Analyzed " ++ toString analyzed ++ " module(s)")
      else ""),
    String.join (outcomes.map (outcomeErr refusals))⟩

/-- Whether the directory of an outcome is a path that is not text, for which JSON has no room. -/
def Surroundings.isForeign (surroundings : Surroundings) (outcome : Outcome) : Bool :=
  surroundings.foreign.contains outcome.writtenDirectory

/-- Outcomes in JSON. The first foreign one decides, whatever the others are: a report is refused by
the writer, a refused module breaks the run off, and nothing is printed. -/
def encodeOutcomes (surroundings : Surroundings) (outcomes : List Outcome) : Output :=
  match outcomes.find? surroundings.isForeign with
  | some outcome =>
      if succeeded outcome then failed [surroundings.words.foreignPath]
      else ⟨101, "", surroundings.words.broken⟩
  | none =>
      ⟨if outcomes.all succeeded then 0 else 1,
        line (Json.array (outcomes.map (·.toJson surroundings.words.refusals))).toText, ""⟩

def printOutcomes (surroundings : Surroundings) (json : Bool) (outcomes : List Outcome) : Output :=
  if json then encodeOutcomes surroundings outcomes
  else showOutcomes surroundings.words.refusals outcomes

/-- An output with what the log shows before it. -/
def Output.afterNotes (output : Output) (log : Log) (notes : List LogNote) : Output :=
  { output with err := log.text notes ++ output.err }

@[simp] theorem Output.code_afterNotes (output : Output) (log : Log) (notes : List LogNote) :
    (output.afterNotes log notes).code = output.code :=
  rfl

@[simp] theorem Output.out_afterNotes (output : Output) (log : Log) (notes : List LogNote) :
    (output.afterNotes log notes).out = output.out :=
  rfl

def directoriesOf (surroundings : Surroundings) (settings : Settings) :
    Target → Except (List String) (List Path)
  | .directories paths => .ok paths
  | .below root => discover surroundings settings root

def runAnalyze (surroundings : Surroundings) (settings : Settings) (target : Target)
    (commits : Path) (json : Bool) : Output :=
  match directoriesOf surroundings settings target with
  | .error chain => failed chain
  | .ok directories =>
      match readCommits surroundings commits with
      | .error error =>
          failed (("Failed to read commits from " ++ commits.text) ::
            error.chain surroundings.words.historyRefusal)
      | .ok history =>
          let outcomes :=
            (Module.analyzeAll surroundings.files settings history .empty directories).1
          (printOutcomes surroundings json outcomes).afterNotes surroundings.words.log
            (outcomes.flatMap (·.notes))

def runCommand (surroundings : Surroundings) (settings : Settings) : Command → Output
  | .config directory => runConfig surroundings settings directory
  | .analyze target commits json => runAnalyze surroundings settings target commits json
  | .modules root => runModules surroundings settings root

/-- An invocation: its settings are loaded before anything else. -/
def runInvocation (surroundings : Surroundings) (invocation : Invocation) : Output :=
  match Settings.load surroundings.files surroundings.userDirectory? invocation.settings? with
  | .error error =>
      failed ["Error loading settings", error.message surroundings.words.settingsRefusal]
  | .ok settings => runCommand surroundings settings invocation.command

def run (surroundings : Surroundings) (arguments : List String) : Output :=
  match Invocation.ofArguments arguments with
  | .ok invocation => runInvocation surroundings invocation
  | .error (.help topic) => ⟨0, topic.page.text, ""⟩
  | .error .version => ⟨0, line "scope-release 0.1.0", ""⟩
  | .error (.fault _) => ⟨2, "", line ("Usage: " ++ (HelpTopic.page .program).call)⟩

/-- What the identity command says about a fault in its arguments, which it quotes without
controls. -/
def identityFault : UsageFault → String
  | .missing _ => "Module directory not provided."
  | .unexpected argument => "unexpected argument '" ++ Text.withoutControls argument ++ "' found"
  | .unwantedValue option value =>
      "unexpected value '" ++ Text.withoutControls value ++ "' for '" ++ option ++
        "' found; no more were expected"
  | .emptyValue argument =>
      "a value is required for '<" ++ argument ++ ">' but none was supplied"
  | .missingValue option | .repeated option | .unknownCommand option => "'" ++ option ++ "'"
  | .conflict left right => "'" ++ left ++ "' and '" ++ right ++ "'"

def identityJson (identity : Identity) : Json :=
  .object [
    ("tag_prefix", .string identity.tagPrefix),
    ("commit_scope", .string identity.commitScope)]

/-- The command that prints the tag prefix and the commit scope of a module, always under the
standard settings. Of a fault in its arguments it shows one line, whatever they hold. -/
def runIdentity (surroundings : Surroundings) (arguments : List String) : Output :=
  let refused := fun text : String => (⟨1, "", line ("Error: " ++ text)⟩ : Output)
  match identityDirectory arguments with
  | .error (.fault fault) => refused (Text.firstLine (identityFault fault))
  | .error _ => ⟨0, (HelpTopic.page .identity).text, ""⟩
  | .ok directory =>
      match (Module.resolve surroundings.files .standard .empty directory).1 with
      | .ok module =>
          ⟨0, line (identityJson module.identity).toLine, surroundings.words.log.text module.notes⟩
      | .error error => refused (error.message surroundings.words.refusals)

end ReleaseAdvisor.CommandLine
