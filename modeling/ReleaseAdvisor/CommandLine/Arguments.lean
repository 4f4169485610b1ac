/-!
# Reading command lines

Splits the arguments of a command into items, left to right. An option is written `--name value`,
`--name=value`, `-n value`, `-nvalue` or `-n=value`; flags take no value, and their letters may be
run together. Two dashes alone make everything after them an operand; one dash alone is an
operand. Nothing is read after the first fault.
-/

namespace ReleaseAdvisor.CommandLine

structure OptionSpec where
  name : String
  letter? : Option Char
  takesValue : Bool
  deriving DecidableEq, Repr

inductive UsageFault where
  | unexpected (argument : String)
  | unwantedValue (option value : String)
  | missingValue (option : String)
  | repeated (option : String)
  | missing (argument : String)
  | emptyValue (argument : String)
  | conflict (left right : String)
  | unknownCommand (name : String)
  deriving DecidableEq, Repr

/-- One item of a command line. An operand comes with the arguments after it, which may belong to
the command that it names; `dashes` are the two dashes after which all is operands. -/
inductive Item where
  | flag (name : String)
  | option (name value : String)
  | operand (text : String) (rest : List String)
  | dashes
  | fault (fault : UsageFault)
  deriving DecidableEq, Repr

inductive Expecting where
  | anything
  | valueOf (option : OptionSpec)
  | operands
  | nothing
  deriving DecidableEq, Repr

def letters (specs : List OptionSpec) : List Char → List Item × Expecting
  | [] => ([], .anything)
  | letter :: rest =>
      match specs.find? (·.letter? == some letter) with
      | none => ([.fault (.unexpected (String.ofList ['-', letter]))], .nothing)
      | some spec =>
          if spec.takesValue then
            match rest with
            | [] => ([], .valueOf spec)
            | '=' :: value => ([.option spec.name (String.ofList value)], .anything)
            | value => ([.option spec.name (String.ofList value)], .anything)
          else
            let (items, next) := letters specs rest
            (.flag spec.name :: items, next)

def long (specs : List OptionSpec) (text : List Char) : List Item × Expecting :=
  let (nameChars, attached) := text.span (· != '=')
  let name := String.ofList nameChars
  match specs.find? (·.name == name), attached with
  | none, _ => ([.fault (.unexpected ("--" ++ name))], .nothing)
  | some spec, [] => if spec.takesValue then ([], .valueOf spec) else ([.flag name], .anything)
  | some spec, _ :: value =>
      if spec.takesValue then ([.option name (String.ofList value)], .anything)
      else ([.fault (.unwantedValue ("--" ++ name) (String.ofList value))], .nothing)

def argument (specs : List OptionSpec) (text : String) (rest : List String) :
    List Item × Expecting :=
  match text.toList with
  | ['-', '-'] => ([.dashes], .operands)
  | '-' :: '-' :: name => long specs name
  | ['-'] => ([.operand text rest], .anything)
  | '-' :: cluster => letters specs cluster
  | _ => ([.operand text rest], .anything)

/-- Whether an argument is read as an option rather than as the value of one. -/
def looksLikeOption (text : String) : Bool :=
  text.toList.head? == some '-' && text != "-"

def items (specs : List OptionSpec) : Expecting → List String → List Item
  | .valueOf spec, [] => [.fault (.missingValue spec.name)]
  | _, [] => []
  | .nothing, _ => []
  | .operands, text :: rest => .operand text rest :: items specs .operands rest
  | .valueOf spec, text :: rest =>
      if looksLikeOption text then [.fault (.missingValue spec.name)]
      else .option spec.name text :: items specs .anything rest
  | .anything, text :: rest =>
      let (read, next) := argument specs text rest
      read ++ items specs next rest

end ReleaseAdvisor.CommandLine
