import ReleaseAdvisor.CommandLine.Arguments
import ReleaseAdvisor.Files.Path

/-!
# Invocations

What the two commands are asked to do. `Invocation.ofArguments` reads the arguments of the main
command: an optional settings file, which may stand before or after the name of the subcommand,
and the subcommand with its arguments. `identityDirectory` reads the one argument of the command
that prints a module's identity.

Items are taken from left to right, so a request for help that stands before a fault is granted.
What concerns the command line as a whole is checked at its end.
-/

namespace ReleaseAdvisor.CommandLine

/-- The modules that an analysis covers. -/
inductive Target where
  | directories (paths : List Path)
  | below (root : Path)
  deriving DecidableEq, Repr

inductive Command where
  | config (directory : Path)
  | analyze (target : Target) (commits : Path) (json : Bool)
  | modules (root : Path)
  deriving DecidableEq, Repr

structure Invocation where
  settings? : Option Path
  command : Command
  deriving DecidableEq, Repr

/-- What help can be asked about: the two programs and the subcommands of the first. -/
inductive HelpTopic where
  | program
  | config
  | analyze
  | modules
  | help
  | identity
  deriving DecidableEq, Repr

inductive Stop where
  | help (topic : HelpTopic)
  | version
  | fault (fault : UsageFault)
  deriving DecidableEq, Repr

structure Given where
  settings? : Option String
  root? : Option String
  commits? : Option String
  json : Bool
  operands : List String
  deriving DecidableEq, Repr

namespace Given

def none : Given :=
  ⟨.none, .none, .none, false, []⟩

def setOnce (name value : String) (old? : Option String) : Except Stop (Option String) :=
  if value.isEmpty then .error (.fault (.emptyValue name))
  else if old?.isSome then .error (.fault (.repeated name))
  else .ok (some value)

/-- Takes one item; a request for help is one about the topic. -/
def take (topic : HelpTopic) (given : Given) : Item → Except Stop Given
  | .fault fault => .error (.fault fault)
  | .dashes => .ok given
  | .flag "help" => .error (.help topic)
  | .flag "version" => .error .version
  | .flag name =>
      if given.json then .error (.fault (.repeated name)) else .ok { given with json := true }
  | .option "settings" value => do
      pure { given with settings? := ← setOnce "settings" value given.settings? }
  | .option "root" value => do
      pure { given with root? := ← setOnce "root" value given.root? }
  | .option name value => do
      pure { given with commits? := ← setOnce name value given.commits? }
  | .operand text _ =>
      if text.isEmpty then .error (.fault (.emptyValue "operand"))
      else .ok { given with operands := given.operands ++ [text] }

end Given

def helpSpec : OptionSpec :=
  ⟨"help", some 'h', false⟩

def settingsSpec : OptionSpec :=
  ⟨"settings", some 's', true⟩

def globalSpecs : List OptionSpec :=
  [helpSpec, settingsSpec, ⟨"version", some 'V', false⟩]

def plainSpecs : List OptionSpec :=
  [helpSpec, settingsSpec]

def analyzeSpecs : List OptionSpec :=
  [helpSpec, settingsSpec, ⟨"root", none, true⟩, ⟨"commits", some 'c', true⟩,
    ⟨"json", none, false⟩]

def onlyOperand (name : String) : List String → Except Stop Path
  | [] => .error (.fault (.missing name))
  | operand :: _ => .ok ⟨operand⟩

/-- Takes the items of a subcommand that has at most `limit` operands. -/
def takeAll (topic : HelpTopic) (limit : Option Nat) : Given → List Item → Except Stop Given
  | given, [] => .ok given
  | given, item :: rest => do
      let next ← given.take topic item
      if limit.any (· < next.operands.length) then
        .error (.fault (.unexpected (next.operands.getLast?.getD "")))
      else takeAll topic limit next rest

/-- The target of an analysis: directories or a root, one of them and not both. -/
def targetOf (given : Given) : Except Stop Target :=
  match given.root?, given.operands with
  | some _, _ :: _ => .error (.fault (.conflict "root" "MODULE_DIRS"))
  | some root, [] => .ok (.below ⟨root⟩)
  | none, [] => .error (.fault (.missing "MODULE_DIRS"))
  | none, operands => .ok (.directories (operands.map Path.mk))

def topics : List (String × HelpTopic) :=
  [("config", .config), ("analyze", .analyze), ("modules", .modules), ("help", .help)]

def commandOf (name : String) (arguments : List String) :
    Except Stop (Option String × Command) :=
  match name with
  | "config" => do
      let given ← takeAll .config (some 1) .none (items plainSpecs .anything arguments)
      pure (given.settings?, .config (← onlyOperand "MODULE_DIR" given.operands))
  | "modules" => do
      let given ← takeAll .modules (some 1) .none (items plainSpecs .anything arguments)
      pure (given.settings?, .modules (← onlyOperand "ROOT" given.operands))
  | "analyze" => do
      let given ← takeAll .analyze none .none (items analyzeSpecs .anything arguments)
      let target ← targetOf given
      match given.commits? with
      | some commits => pure (given.settings?, .analyze target ⟨commits⟩ given.json)
      | none => .error (.fault (.missing "commits"))
  | "help" =>
      match arguments with
      | [] => .error (.help .program)
      | [name] =>
          match topics.lookup name with
          | some topic => .error (.help topic)
          | none => .error (.fault (.unknownCommand name))
      | _ :: extra :: _ => .error (.fault (.unknownCommand extra))
  | _ => .error (.fault (.unknownCommand name))

/-- Takes the items before the subcommand, and then the subcommand. A settings file named after
the subcommand takes the place of one named before it. After two dashes no subcommand can come. -/
def takeGlobal : Given → List Item → Except Stop Invocation
  | _, [] | _, .dashes :: _ => .error (.fault (.missing "COMMAND"))
  | given, .operand name rest :: _ => do
      let (settings?, command) ← commandOf name rest
      pure ⟨(settings?.or given.settings?).map Path.mk, command⟩
  | given, item :: rest => do
      takeGlobal (← given.take .program item) rest

def Invocation.ofArguments (arguments : List String) : Except Stop Invocation :=
  takeGlobal .none (items globalSpecs .anything arguments)

/-- The directory that the arguments of the identity command name. An empty directory is only
noticed once nothing else is wrong. -/
def identityDirectory (arguments : List String) : Except Stop Path :=
  takeDirectory none (items [helpSpec] .anything arguments)
where
  takeDirectory : Option String → List Item → Except Stop Path
    | none, [] => .error (.fault (.missing "MODULE_DIR"))
    | some directory, [] => checked directory
    | none, .operand text _ :: rest => takeDirectory (some text) rest
    | some _, .operand text _ :: _ => .error (.fault (.unexpected text))
    | directory?, .dashes :: rest => takeDirectory directory? rest
    | _, .fault fault :: _ => .error (.fault fault)
    | none, .flag _ :: _ | none, .option _ _ :: _ => .error (.help .identity)
    | some directory, .flag _ :: _ | some directory, .option _ _ :: _ => do
        let _ ← checked directory
        .error (.help .identity)
  checked (directory : String) : Except Stop Path :=
    if directory.isEmpty then .error (.fault (.emptyValue "MODULE_DIR")) else .ok ⟨directory⟩

end ReleaseAdvisor.CommandLine
