import ReleaseAdvisor.CommandLine.Invocation
import ReleaseAdvisor.Module.Resolution

/-!
# What a command looks at

The paths whose entries decide what a command does, as far as the entries seen so far tell. The
settings decide which directories are listed and which files configure a module, and a listing
decides which directories are modules. So the paths are all known after three rounds, each of
which sees the entries that the round before it has named.
-/

namespace ReleaseAdvisor

def Settings.modulePaths (settings : Settings) (directory : Path) : List Path :=
  [directory, settings.descriptorPath directory, settings.legacyPath directory]

namespace CommandLine

def rootPaths (files : FileSystem) (settings : Settings) (root : Path) : List Path :=
  match files.list root with
  | .ok names => root :: names.flatMap fun name => settings.modulePaths (root.join name)
  | .error _ => [root]

def Command.paths (files : FileSystem) (settings : Settings) : Command → List Path
  | .config directory => settings.modulePaths directory
  | .modules root => rootPaths files settings root
  | .analyze (.directories directories) commits _ =>
      commits :: directories.flatMap settings.modulePaths
  | .analyze (.below root) commits _ => commits :: rootPaths files settings root

def Invocation.paths (files : FileSystem) (userDirectory? : Option Path)
    (invocation : Invocation) : List Path :=
  let places := invocation.settings?.toList ++ Settings.standardPlaces userDirectory?
  match Settings.load files userDirectory? invocation.settings? with
  | .ok settings => places ++ invocation.command.paths files settings
  | .error _ => places

end CommandLine

end ReleaseAdvisor
