import ReleaseAdvisor.Module.Cache
import ReleaseAdvisor.Module.Descriptor

/-!
# Resolving modules

A module directory is resolved from its descriptor if it has one, else from its legacy document.
A descriptor settles the matter even if it is broken. Only the legacy path uses the cache.

A legacy module may lie in a directory that has no name. It then goes by its commit scope, and the
log is told.

Discovery lists the modules below a directory: its immediate subdirectories that have one of the
two files.
-/

namespace ReleaseAdvisor

/-- Where a module's configuration comes from. -/
inductive ConfigSource where
  | descriptor
  | legacy
  deriving DecidableEq, Repr

def ConfigSource.name : ConfigSource → String
  | .descriptor => "descriptor"
  | .legacy => "legacy"

/-- A module whose configuration is known. -/
structure Module where
  directory : Path
  identity : Identity
  source : ConfigSource
  rules : RuleSet
  deriving DecidableEq, Repr

/-- What the log is told about a module that has been resolved. -/
inductive LogNote where
  | noDirectoryName (commitScope : String)
  deriving DecidableEq, Repr

def LogNote.ofIdentity (directory : Path) (identity : Identity) : ConfigSource → List LogNote
  | .descriptor => []
  | .legacy =>
      if (directory.name?.getD "").isEmpty then [.noDirectoryName identity.commitScope] else []

namespace Settings

def descriptorPath (settings : Settings) (directory : Path) : Path :=
  directory.join settings.descriptorFile

def legacyPath (settings : Settings) (directory : Path) : Path :=
  directory.join settings.legacyFile

def configures (settings : Settings) (files : FileSystem) (directory : Path) : Bool :=
  files.isFile (settings.descriptorPath directory) ||
    files.isFile (settings.legacyPath directory)

end Settings

namespace Module

def notes (module : Module) : List LogNote :=
  LogNote.ofIdentity module.directory module.identity module.source

def ofLegacy (settings : Settings) (directory : Path) (source : LegacySource) :
    Except ConfigError Module :=
  (source.identity (directory.name?.getD "") settings.versionPlaceholder).map fun identity =>
    ⟨directory, identity, .legacy, source.rules⟩

def ofDescriptor (files : FileSystem) (settings : Settings) (directory : Path) :
    Except ConfigError Module :=
  (Descriptor.read files settings (settings.descriptorPath directory)).map
    fun (identity, rules) => ⟨directory, identity, .descriptor, rules⟩

/-- Resolves a module directory; the result comes with the cache after it. -/
def resolve (files : FileSystem) (settings : Settings) (cache : LegacyCache)
    (directory : Path) : Except ConfigError Module × LegacyCache :=
  if files.isFile (settings.descriptorPath directory) then
    (ofDescriptor files settings directory, cache)
  else if files.isFile (settings.legacyPath directory) then
    let (reading, cache) := cache.reload files (settings.legacyPath directory)
    (reading.bind (ofLegacy settings directory), cache)
  else
    (.error (.noConfiguration directory), cache)

/-- The module directories immediately below a root, in ascending order of their names. -/
def discover (files : FileSystem) (settings : Settings) (root : Path) :
    Except FileError (List Path) :=
  (files.list root).map fun names =>
    (((names.mergeSort fun left right => decide (left ≤ right)).map root.join).filter
      fun directory => files.isDirectory directory && settings.configures files directory)

end Module

end ReleaseAdvisor
