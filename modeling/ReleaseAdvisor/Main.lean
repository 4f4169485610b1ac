import ReleaseAdvisor.CommandLine.Lookup
import ReleaseAdvisor.CommandLine.Run

/-!
# The program

Carries a command out: looks up what it needs to know, computes its output, and prints that. All
decisions are made by `CommandLine.run` and `CommandLine.runIdentity`. The program answers to two
names; under the name `get-module-config` it prints a module's identity.
-/

namespace ReleaseAdvisor.Program

open CommandLine

/-- The content that some bytes make up. -/
def contentOf (bytes : ByteArray) : FileContent :=
  match String.fromUTF8? bytes with
  | some text => .text text
  | none => .binary

def fileError : IO.Error → FileError
  | .noFileOrDirectory .. => .notFound
  | .inappropriateType .. => .notADirectory
  | .invalidArgument .. => .nameTooLong
  | .permissionDenied .. => .denied
  | .otherError code details => .other (details ++ " (os error " ++ toString code ++ ")")
  | error => .other (toString error)

/-- The content that reading finds. A failure to read is known to be one of the content, because
something is there to be read. -/
def contentFrom (reading : IO ByteArray) : IO FileContent := do
  try return contentOf (← reading)
  catch error => return .unreadable (fileError error)

def lookUp (path : Path) : IO (Except FileError FileEntry) := do
  if path.text.toList.contains '\x00' then return .error .containsNul
  if path.text.isEmpty then return .error .notFound
  let place := (← IO.currentDir) / path.text
  try
    if (← place.metadata).type == .dir then
      return .ok (.directory ((← place.readDir).toList.map (·.fileName)))
    else
      return .ok (.file (← contentFrom (IO.FS.readBinFile place)))
  catch error => return .error (fileError error)

/-- The file system as far as some lookups show it. -/
def seenAt (paths : List Path) : IO FileSystem := do
  let entries ← paths.mapM fun path => do pure (path, ← lookUp path)
  return ⟨fun path => (entries.lookup path).getD (.error .notFound)⟩

/-- The file system as far as some paths show it that are named in rounds. -/
def seenInRounds (paths : FileSystem → List Path) : Nat → IO FileSystem
  | 0 => return ⟨fun _ => .error .notFound⟩
  | rounds + 1 => do seenAt (paths (← seenInRounds paths rounds))

def userDirectory : IO (Option Path) := do
  match ← IO.getEnv "XDG_CONFIG_HOME" with
  | some directory => if Path.isAbsolute ⟨directory⟩ then return some ⟨directory⟩ else home
  | none => home
where
  home : IO (Option Path) := do
    return (← IO.getEnv "HOME").map fun directory => Path.join ⟨directory⟩ ".config"

def noteLine : LogNote → String
  | .noDirectoryName scope =>
      line ("WARN Legacy module has no directory name; using commit scope scope=" ++ scope)

/-- The words of the program. Its log shows the notes in their order and without times. -/
def wording : Wording :=
  { Wording.brief with log := ⟨fun notes => String.join (notes.map noteLine), rfl⟩ }

def inputFor (command : Command) : IO FileContent := do
  match command with
  | .analyze _ commits _ =>
      if commits.same ⟨"-"⟩ then
        return ← contentFrom (do (← IO.getStdin).readBinToEnd)
      else return .text ""
  | _ => return .text ""

def mainOutput (arguments : List String) : IO Output := do
  let userDirectory? ← userDirectory
  match Invocation.ofArguments arguments with
  | .error _ =>
      return run ⟨⟨fun _ => .error .notFound⟩, userDirectory?, .text "", .none, wording⟩ arguments
  | .ok invocation =>
      let files ← seenInRounds (fun files => invocation.paths files userDirectory?) 3
      let input ← inputFor invocation.command
      return run ⟨files, userDirectory?, input, .none, wording⟩ arguments

def identityOutput (arguments : List String) : IO Output := do
  let paths :=
    match identityDirectory arguments with
    | .ok directory => Settings.standard.modulePaths directory
    | .error _ => []
  return runIdentity ⟨← seenAt paths, none, .text "", .none, wording⟩ arguments

end ReleaseAdvisor.Program

open ReleaseAdvisor

def main (arguments : List String) : IO UInt32 := do
  let name := (← IO.appPath).fileName.getD ""
  let output ←
    if name == "get-module-config" then Program.identityOutput arguments
    else Program.mainOutput arguments
  IO.print output.out
  IO.eprint output.err
  return UInt32.ofNat output.code
