import ReleaseAdvisor.Commit.BreakingNote
import ReleaseAdvisor.Files.System
import ReleaseAdvisor.Toml.Field
import ReleaseAdvisor.Toml.Reader

/-!
# Settings

Which files a module is configured by, and what holds for modules that leave something open.
Every value has a default.

Settings come from exactly one place: a file that is asked for, or else the first of two standard
places where anything stands. If that place cannot be read, loading fails; it never falls through
to the next one.
-/

namespace ReleaseAdvisor

structure Settings where
  descriptorFile : String
  legacyFile : String
  versionPlaceholder : String
  keywords : List String
  deriving DecidableEq, Repr

inductive SettingsError where
  | unreadable (error : FileError)
  | malformed
  deriving DecidableEq, Repr

/-- The wording of an error, given what the reader of the document says about it. -/
def SettingsError.message (reason : String) : SettingsError → String
  | .unreadable error => error.message
  | .malformed => reason

namespace Settings

def standard : Settings where
  descriptorFile := "module.toml"
  legacyFile := ".releaserc.json"
  versionPlaceholder := "$\x7bversion\x7d"
  keywords := BreakingNote.defaultKeywords

/-- Settings from the entries of a document; missing keys take their defaults. -/
def ofEntries? (entries : Toml.Entries) : Option Settings := do
  let descriptorFile ← Toml.stringField? entries "descriptor_file"
  let legacyFile ← Toml.stringField? entries "legacy_file"
  let versionPlaceholder ← Toml.stringField? entries "version_placeholder"
  let keywords ← Toml.stringsField? entries "note_keywords"
  pure {
    descriptorFile := descriptorFile.getD standard.descriptorFile
    legacyFile := legacyFile.getD standard.legacyFile
    versionPlaceholder := versionPlaceholder.getD standard.versionPlaceholder
    keywords := keywords.getD standard.keywords }

def parse (text : String) : Except SettingsError Settings :=
  match (Toml.parse? text).bind ofEntries? with
  | some settings => .ok settings
  | none => .error .malformed

def workingFile : Path :=
  ⟨"./scope-release.toml"⟩

def userFile (userDirectory : Path) : Path :=
  userDirectory.join ".scope-release.toml"

def read (files : FileSystem) (path : Path) : Except SettingsError Settings :=
  match files.read path with
  | .error error => .error (.unreadable error)
  | .ok text => parse text

/-- The places that settings may come from where no file is asked for, in order. -/
def standardPlaces (userDirectory? : Option Path) : List Path :=
  workingFile :: (userDirectory?.map userFile).toList

def place? (files : FileSystem) (userDirectory? : Option Path) (given? : Option Path) :
    Option Path :=
  given?.or ((standardPlaces userDirectory?).find? files.present)

/-- Loads the settings; the standard ones if no place has any. -/
def load (files : FileSystem) (userDirectory? : Option Path) (given? : Option Path) :
    Except SettingsError Settings :=
  match place? files userDirectory? given? with
  | some path => read files path
  | none => .ok standard

end Settings

end ReleaseAdvisor
