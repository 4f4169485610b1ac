import Mathlib.Data.List.Basic
import ReleaseAdvisor.Files.Tree
import ReleaseAdvisor.Proofs.Toml.Field
import ReleaseAdvisor.Settings

/-!
# Where settings come from

Settings are read from one place. A file that is asked for is that place, whether it is there or
not; otherwise it is the first standard place where anything stands. The place is selected before it
is read, so nothing that goes wrong in reading it leads to another place or to the standard
settings, and nothing that stands elsewhere takes part. A place where something stands need not be
readable: a directory is not, nor is a file that may not be opened.

What a document says is told key by key: a key has the value that is written under it, and its
standard value if nothing is. A document is refused if it is no TOML, or if a value under one of the
keys is of another type.
-/

namespace ReleaseAdvisor

namespace FileSystem

variable {files others : FileSystem} {path other : Path}

theorem read_eq_ok_iff {text : String} :
    files.read path = .ok text ↔ files.entry path = .ok (.file (.text text)) := by
  unfold read
  split
  · rename_i content stands
    rw [FileContent.read_eq_ok_iff, stands]
    simp
  · rename_i names stands
    simp [stands]
  · rename_i error stands
    simp [stands]

/-- Two places that cannot be told apart by looking whether something stands there and by reading
it. Places with the same entry cannot, nor can two directories. -/
structure AgreeAt (files others : FileSystem) (path other : Path) : Prop where
  present : files.present path = others.present other
  read : files.read path = others.read other

theorem AgreeAt.of_entry_eq (same : files.entry path = others.entry other) :
    AgreeAt files others path other where
  present := by rw [FileSystem.present, FileSystem.present, same]
  read := by rw [FileSystem.read, FileSystem.read, same]

end FileSystem

namespace Settings

/-! ## What a document says -/

inductive Key where
  | descriptorFile
  | legacyFile
  | versionPlaceholder
  | keywords
  deriving DecidableEq, Repr

def Key.name : Key → String
  | .descriptorFile => "descriptor_file"
  | .legacyFile => "legacy_file"
  | .versionPlaceholder => "version_placeholder"
  | .keywords => "note_keywords"

/-- The value that settings have under a key, the way a document writes it. -/
def valueAt (settings : Settings) : Key → Toml
  | .descriptorFile => .string settings.descriptorFile
  | .legacyFile => .string settings.legacyFile
  | .versionPlaceholder => .string settings.versionPlaceholder
  | .keywords => .array (settings.keywords.map .string)

/-- Whether a value is of the type of a key. -/
def Key.Takes (key : Key) (value : Toml) : Prop :=
  ∃ settings : Settings, settings.valueAt key = value

/-- Settings that have the written value under each key, and the standard one where none is. -/
def GivenBy (settings : Settings) (entries : Toml.Entries) : Prop :=
  ∀ key : Key, settings.valueAt key = (entries.lookup key.name).getD (standard.valueAt key)

def WrittenAs (settings : Settings) (text : String) : Prop :=
  ∃ entries, Toml.parse? text = some entries ∧ settings.GivenBy entries

/-- A text that is no TOML, or that has a value of another type under one of the keys. -/
def Malformed (text : String) : Prop :=
  ∀ entries, Toml.parse? text = some entries →
    ∃ (key : Key) (value : Toml), entries.lookup key.name = some value ∧ ¬key.Takes value

/-- A field with a standard value is what is written, or the standard value if nothing is. -/
theorem exists_written_iff {α : Type} {write : α → Toml} (injective : Function.Injective write)
    {written? : Option Toml} {standardValue value : α} :
    (∃ value?, written? = Option.map write value? ∧ value?.getD standardValue = value) ↔
      write value = written?.getD (write standardValue) := by
  constructor
  · rintro ⟨value?, rfl, rfl⟩
    exact (Option.getD_map write standardValue value?).symm
  · intro held
    cases written? with
    | none => exact ⟨none, rfl, injective held.symm⟩
    | some written => exact ⟨some value, by rw [Option.map_some, held, Option.getD_some], rfl⟩

theorem injective_string : Function.Injective Toml.string :=
  fun _ _ => Toml.string.inj

theorem injective_strings :
    Function.Injective fun texts : List String => Toml.array (texts.map .string) :=
  fun _ _ same => injective_string.list_map (Toml.array.inj same)

variable {entries : Toml.Entries} {settings : Settings} {text : String}

theorem ofEntries?_eq_some_iff :
    ofEntries? entries = some settings ↔ settings.GivenBy entries := by
  rcases settings with ⟨descriptorFile, legacyFile, versionPlaceholder, keywords⟩
  simp only [ofEntries?, Option.bind_eq_bind, Option.bind_eq_some_iff, Option.pure_def,
    Option.some.injEq, Settings.mk.injEq, Toml.stringField?_eq_some_iff,
    Toml.stringsField?_eq_some_iff]
  constructor
  · rintro ⟨descriptorFile?, descriptorFile, legacyFile?, legacyFile, versionPlaceholder?,
      versionPlaceholder, keywords?, keywords, rfl, rfl, rfl, rfl⟩ key
    cases key with
    | descriptorFile => exact (exists_written_iff injective_string).mp ⟨_, descriptorFile, rfl⟩
    | legacyFile => exact (exists_written_iff injective_string).mp ⟨_, legacyFile, rfl⟩
    | versionPlaceholder =>
        exact (exists_written_iff injective_string).mp ⟨_, versionPlaceholder, rfl⟩
    | keywords => exact (exists_written_iff injective_strings).mp ⟨_, keywords, rfl⟩
  · intro given
    rcases (exists_written_iff injective_string).mpr (given .descriptorFile) with
      ⟨descriptorFile?, descriptorFile, isDescriptorFile⟩
    rcases (exists_written_iff injective_string).mpr (given .legacyFile) with
      ⟨legacyFile?, legacyFile, isLegacyFile⟩
    rcases (exists_written_iff injective_string).mpr (given .versionPlaceholder) with
      ⟨versionPlaceholder?, versionPlaceholder, isPlaceholder⟩
    rcases (exists_written_iff injective_strings).mpr (given .keywords) with
      ⟨keywords?, keywords, areKeywords⟩
    exact ⟨_, descriptorFile, _, legacyFile, _, versionPlaceholder, _, keywords,
      isDescriptorFile, isLegacyFile, isPlaceholder, areKeywords⟩

/-- Values of the right types give settings, since each key is looked at by itself. -/
theorem exists_givenBy_iff :
    (∃ settings : Settings, settings.GivenBy entries) ↔
      ∀ (key : Key) (value : Toml), entries.lookup key.name = some value → key.Takes value := by
  constructor
  · rintro ⟨settings, given⟩ key value written
    refine ⟨settings, ?_⟩
    rw [given key, written, Option.getD_some]
  · intro takes
    have taken : ∀ key : Key, ∃ settings : Settings,
        settings.valueAt key = (entries.lookup key.name).getD (standard.valueAt key) := by
      intro key
      cases written : entries.lookup key.name with
      | none => exact ⟨standard, rfl⟩
      | some value => exact takes key value written
    -- Settings that are right under one key each are put together: no key sees another field.
    rcases taken .descriptorFile with ⟨withFile, descriptorFile⟩
    rcases taken .legacyFile with ⟨withLegacy, legacyFile⟩
    rcases taken .versionPlaceholder with ⟨withPlaceholder, versionPlaceholder⟩
    rcases taken .keywords with ⟨withKeywords, keywords⟩
    refine ⟨⟨withFile.descriptorFile, withLegacy.legacyFile, withPlaceholder.versionPlaceholder,
      withKeywords.keywords⟩, ?_⟩
    intro key
    cases key with
    | descriptorFile => exact descriptorFile
    | legacyFile => exact legacyFile
    | versionPlaceholder => exact versionPlaceholder
    | keywords => exact keywords

theorem not_exists_writtenAs_iff :
    (¬∃ settings : Settings, settings.WrittenAs text) ↔ Malformed text := by
  have refused : ∀ entries : Toml.Entries, (¬∃ settings : Settings, settings.GivenBy entries) ↔
      ∃ (key : Key) (value : Toml), entries.lookup key.name = some value ∧ ¬key.Takes value := by
    intro entries
    rw [exists_givenBy_iff]
    push Not
    rfl
  simp only [Malformed, ← refused, WrittenAs]
  constructor
  · rintro unwritten entries parsed ⟨settings, given⟩
    exact unwritten ⟨settings, entries, parsed, given⟩
  · rintro refusedAll ⟨settings, entries, parsed, given⟩
    exact refusedAll entries parsed ⟨settings, given⟩

theorem bind_ofEntries?_eq_some_iff :
    (Toml.parse? text).bind ofEntries? = some settings ↔ settings.WrittenAs text := by
  rw [Option.bind_eq_some_iff]
  simp only [ofEntries?_eq_some_iff, WrittenAs]

theorem parse_of_writtenAs (written : settings.WrittenAs text) : parse text = .ok settings := by
  rw [parse, bind_ofEntries?_eq_some_iff.mpr written]

theorem parse_of_malformed (malformed : Malformed text) : parse text = .error .malformed := by
  have unread : (Toml.parse? text).bind ofEntries? = none := by
    rw [Option.eq_none_iff_forall_ne_some]
    intro settings read
    exact not_exists_writtenAs_iff.mpr malformed ⟨settings, bind_ofEntries?_eq_some_iff.mp read⟩
  rw [parse, unread]

/-! ## Which place is read -/

/-- The place that settings are read from: the one that is asked for, or else the first standard
place where something stands. -/
inductive Selects (files : FileSystem) (userDirectory? : Option Path) :
    Option Path → Path → Prop where
  | given (path : Path) : Selects files userDirectory? (some path) path
  | working : files.present workingFile → Selects files userDirectory? none workingFile
  | user {directory : Path} : ¬files.present workingFile → directory ∈ userDirectory? →
      files.present (userFile directory) →
      Selects files userDirectory? none (userFile directory)

/-- No file is asked for, and nothing stands at the standard places. -/
structure SelectsNothing (files : FileSystem) (userDirectory? given? : Option Path) : Prop where
  ungiven : given? = none
  noWorkingFile : ¬files.present workingFile
  noUserFile : ∀ directory ∈ userDirectory?, ¬files.present (userFile directory)

variable {files others : FileSystem} {userDirectory? otherDirectory? given? : Option Path}
  {path other : Path}

theorem exists_selects_or_nothing (files : FileSystem) (userDirectory? given? : Option Path) :
    (∃ path, Selects files userDirectory? given? path) ∨
      SelectsNothing files userDirectory? given? := by
  cases given? with
  | some path => exact Or.inl ⟨path, Selects.given path⟩
  | none =>
      by_cases working : files.present workingFile
      · exact Or.inl ⟨_, Selects.working working⟩
      · by_cases user : ∃ directory ∈ userDirectory?, files.present (userFile directory)
        · rcases user with ⟨directory, isDirectory, present⟩
          exact Or.inl ⟨_, Selects.user working isDirectory present⟩
        · push Not at user
          exact Or.inr ⟨rfl, working, user⟩

theorem Selects.load_eq (selects : Selects files userDirectory? given? path) :
    load files userDirectory? given? = read files path := by
  cases selects with
  | given => rfl
  | working present => simp [load, place?, standardPlaces, present]
  | user absent isDirectory present =>
      obtain rfl := Option.mem_def.mp isDirectory
      simp [load, place?, standardPlaces, absent, present]

theorem load_standard
    (absent : ∀ place ∈ standardPlaces userDirectory?, files.present place = false) :
    load files userDirectory? none = .ok standard := by
  have nowhere : (standardPlaces userDirectory?).find? files.present = none := by
    rw [List.find?_eq_none]
    intro place placeMem
    simp [absent place placeMem]
  rw [load, place?, nowhere]
  rfl

theorem SelectsNothing.load_eq (nothing : SelectsNothing files userDirectory? given?) :
    load files userDirectory? given? = .ok standard := by
  rcases nothing with ⟨rfl, absent, userAbsent⟩
  apply load_standard
  intro place placeMem
  rw [← Bool.not_eq_true]
  rcases List.mem_cons.mp placeMem with rfl | isUserFile
  · exact absent
  · rcases Option.map_eq_some_iff.mp (Option.mem_toList.mp isUserFile) with
      ⟨directory, isDirectory, rfl⟩
    exact userAbsent directory isDirectory

theorem load_eq_of_selects (selects : Selects files userDirectory? given? path)
    {otherGiven? : Option Path} (selectsOther : Selects others otherDirectory? otherGiven? other)
    (agree : files.read path = others.read other) :
    load files userDirectory? given? = load others otherDirectory? otherGiven? := by
  rw [selects.load_eq, selectsOther.load_eq, read, read, agree]

/-! ## What comes of it -/

/-- What loading settings comes to. What is required of an outcome excludes the others. -/
inductive Loads (files : FileSystem) (userDirectory? given? : Option Path) :
    Except SettingsError Settings → Prop where
  | nowhere : SelectsNothing files userDirectory? given? →
      Loads files userDirectory? given? (.ok standard)
  | unreadable {path : Path} {error : FileError} : Selects files userDirectory? given? path →
      files.read path = .error error →
      Loads files userDirectory? given? (.error (.unreadable error))
  | malformed {path : Path} {text : String} : Selects files userDirectory? given? path →
      files.read path = .ok text → Malformed text →
      Loads files userDirectory? given? (.error .malformed)
  | loaded {path : Path} {text : String} {settings : Settings} :
      Selects files userDirectory? given? path → files.read path = .ok text →
      settings.WrittenAs text → Loads files userDirectory? given? (.ok settings)

theorem exists_loads (files : FileSystem) (userDirectory? given? : Option Path) :
    ∃ result, Loads files userDirectory? given? result := by
  rcases exists_selects_or_nothing files userDirectory? given? with ⟨path, selects⟩ | nothing
  · cases readable : files.read path with
    | error error => exact ⟨_, Loads.unreadable selects readable⟩
    | ok text =>
        by_cases written : ∃ settings : Settings, settings.WrittenAs text
        · rcases written with ⟨settings, written⟩
          exact ⟨_, Loads.loaded selects readable written⟩
        · exact ⟨_, Loads.malformed selects readable (not_exists_writtenAs_iff.mp written)⟩
  · exact ⟨_, Loads.nowhere nothing⟩

theorem Loads.load_eq {result : Except SettingsError Settings}
    (loads : Loads files userDirectory? given? result) :
    load files userDirectory? given? = result := by
  cases loads with
  | nowhere nothing => exact nothing.load_eq
  | unreadable selects failed => simp only [selects.load_eq, read, failed]
  | malformed selects readable malformed =>
      simp only [selects.load_eq, read, readable, parse_of_malformed malformed]
  | loaded selects readable written =>
      simp only [selects.load_eq, read, readable, parse_of_writtenAs written]

theorem load_eq_iff {result : Except SettingsError Settings} :
    load files userDirectory? given? = result ↔ Loads files userDirectory? given? result := by
  constructor
  · rintro rfl
    rcases exists_loads files userDirectory? given? with ⟨result, loads⟩
    rwa [loads.load_eq]
  · exact Loads.load_eq

/-- A place that holds no text, or a text that is no settings document, makes loading fail. -/
theorem exists_error_of_selects (selects : Selects files userDirectory? given? path)
    (unusable : ∀ text, files.entry path = .ok (.file (.text text)) → Malformed text) :
    ∃ error, load files userDirectory? given? = .error error := by
  rw [selects.load_eq, read]
  cases readable : files.read path with
  | error error => exact ⟨_, rfl⟩
  | ok text =>
      have stands := FileSystem.read_eq_ok_iff.mp readable
      exact ⟨_, parse_of_malformed (unusable text stands)⟩

/-- Two file systems that agree on the place that settings are read from give the same result,
whatever else stands in them: on the file that is asked for, on the working file where there is one,
and on the user's file where there is only that one. Where nothing is asked for and neither file is
there, the settings are the standard ones. A place that cannot be read or holds no settings document
makes loading fail. In all, loading comes to what its one place calls for, and settings that are
loaded have the written value under each key and the standard one where none is written, whatever
stands under the other keys. -/
theorem settings_come_from_one_place (files others : FileSystem)
    (userDirectory? otherDirectory? : Option Path) :
    (∀ path, FileSystem.AgreeAt files others path path →
      load files userDirectory? (some path) = load others otherDirectory? (some path)) ∧
    (files.present workingFile → FileSystem.AgreeAt files others workingFile workingFile →
      load files userDirectory? none = load others otherDirectory? none) ∧
    (¬files.present workingFile → ¬others.present workingFile →
      ∀ directory ∈ userDirectory?, ∀ other ∈ otherDirectory?,
        files.present (userFile directory) →
        FileSystem.AgreeAt files others (userFile directory) (userFile other) →
        load files userDirectory? none = load others otherDirectory? none) ∧
    (¬files.present workingFile →
      (∀ directory ∈ userDirectory?, ¬files.present (userFile directory)) →
      load files userDirectory? none = .ok standard) ∧
    (∀ given? path, Selects files userDirectory? given? path →
      (∀ text, files.entry path = .ok (.file (.text text)) → Malformed text) →
      ∃ error, load files userDirectory? given? = .error error) ∧
    ∀ given? result, load files userDirectory? given? = result ↔
      Loads files userDirectory? given? result := by
  refine ⟨?_, ?_, ?_, ?_, ?_, ?_⟩
  · intro path agree
    exact load_eq_of_selects (Selects.given path) (Selects.given path) agree.read
  · intro present agree
    have otherPresent : others.present workingFile := by
      rwa [← agree.present]
    exact load_eq_of_selects (Selects.working present) (Selects.working otherPresent) agree.read
  · intro absent otherAbsent directory isDirectory other isOther present agree
    have otherPresent : others.present (userFile other) := by
      rwa [← agree.present]
    exact load_eq_of_selects (Selects.user absent isDirectory present)
      (Selects.user otherAbsent isOther otherPresent) agree.read
  · intro absent userAbsent
    exact SelectsNothing.load_eq ⟨rfl, absent, userAbsent⟩
  · intro given? path selects unusable
    exact exists_error_of_selects selects unusable
  · intro given? result
    exact load_eq_iff

/-- A directory at the place of the working file is selected and fails, whatever is in it and
although the user's file would be read. Without the directory that file is read, and the keys that
it leaves out have their standard values. A file that is asked for and is missing fails as well. -/
theorem settings_come_from_one_place_directory :
    let user : Path := ⟨"xdg"⟩
    let text := "note_keywords = []\nlegacy_file = \"a.json\"\n"
    let written := FileTree.empty.write ⟨"xdg/.scope-release.toml"⟩ (.text text)
    let files := written.toFileSystem
    let blocked := (written.makeDirectory ⟨"scope-release.toml"⟩).toFileSystem
    let bare := (FileTree.empty.write ⟨"scope-release.toml/a.json"⟩ .binary).toFileSystem
    let beside := (written.write ⟨"module.toml"⟩ .binary).toFileSystem
    let missing : Path := ⟨"settings.toml"⟩
    let loaded := .ok { standard with legacyFile := "a.json", keywords := [] }
    load blocked (some user) none = load bare none none ∧
      (∃ error, load blocked (some user) none = .error error) ∧
      load files (some user) none = load beside (some user) none ∧
      load files (some user) none = loaded ∧ Loads files (some user) none loaded ∧
      load files none none = .ok standard ∧
      load files (some user) (some missing) = load bare none (some missing) ∧
      Loads files (some user) (some missing) (.error (.unreadable .notFound)) := by
  intro user text written files blocked bare beside missing loaded
  rcases settings_come_from_one_place blocked bare (some user) none with
    ⟨_, sameWorking, _, _, fails, _⟩
  rcases settings_come_from_one_place files beside (some user) (some user) with
    ⟨_, _, sameUser, _, _, comesTo⟩
  have isLoaded : load files (some user) none = loaded := by
    decide +kernel
  have isMissing : load files (some user) (some missing) = .error (.unreadable .notFound) := by
    decide +kernel
  have blockedPresent : blocked.present workingFile := by
    decide +kernel
  have isDirectory : blocked.entry workingFile = .ok (.directory []) := by
    decide +kernel
  have bothDirectories : FileSystem.AgreeAt blocked bare workingFile workingFile :=
    ⟨by decide +kernel, by decide +kernel⟩
  have sameUserFile : FileSystem.AgreeAt files beside (userFile user) (userFile user) :=
    FileSystem.AgreeAt.of_entry_eq (by decide +kernel)
  have bothMissing : FileSystem.AgreeAt files bare missing missing :=
    FileSystem.AgreeAt.of_entry_eq (by decide +kernel)
  have failed : ∃ error, load blocked (some user) none = .error error := by
    apply fails none workingFile (Selects.working blockedPresent)
    intro text isText
    cases isDirectory.symm.trans isText
  refine ⟨sameWorking blockedPresent bothDirectories, failed, ?_, isLoaded,
    (comesTo _ _).mp isLoaded, ?_, ?_, (comesTo _ _).mp isMissing⟩
  · exact sameUser (by decide +kernel) (by decide +kernel) user rfl user rfl (by decide +kernel)
      sameUserFile
  · exact (settings_come_from_one_place files bare none none).2.2.2.1 (by decide +kernel) (by simp)
  · exact (settings_come_from_one_place files bare (some user) none).1 missing bothMissing

end Settings

end ReleaseAdvisor
