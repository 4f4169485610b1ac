import ReleaseAdvisor.Proofs.CommandLine.ConfigCommands
import ReleaseAdvisor.Proofs.Text.OneLine

/-!
# Diagnostics

A command that cannot resolve a directory says so in one message and ends it with a line feed. The
wording of an error names a place, which is the directory or a file in it, and perhaps fields, and
neither has a line feed where the directory has none. But it also shows values as they stand in the
files of the module: a tag prefix and a commit scope, or the release of a rule. These are shown
without any escape. So a message is one line exactly if the values that it shows are.
-/

namespace ReleaseAdvisor

/-! ## Texts of one line -/

/-- A text with one line feed, which ends it. -/
def CommandLine.IsLine (text : String) : Prop :=
  text.toList.count '\n' = 1 ∧ text.toList.getLast? = some '\n'

theorem CommandLine.isLine_line {content : String} :
    IsLine (line content) ↔ Text.IsOneLine content := by
  rw [IsLine, Text.IsOneLine, line, String.toList_append, List.count_append]
  simp [List.count_eq_zero]

theorem Path.isOneLine_join {directory : Path} {name : String}
    (directoryLine : Text.IsOneLine directory.text) (nameLine : Text.IsOneLine name) :
    Text.IsOneLine (directory.join name).text := by
  unfold join
  split
  · exact nameLine
  · split
    · exact Text.isOneLine_append.mpr ⟨directoryLine, nameLine⟩
    · exact Text.isOneLine_append.mpr
        ⟨Text.isOneLine_append.mpr ⟨directoryLine, by decide⟩, nameLine⟩

/-! ## What an error shows -/

/-- The values that an error shows as they stand in a file. -/
def RecordError.quoted (error : RecordError) : List String :=
  match error.fault with
  | .invalidRelease shown => [shown]
  | .missingRelease | .emptyScope => []

namespace ConfigError

/-- The errors that are worded in full here, without a reader's own words. -/
def isComposed : ConfigError → Bool
  | .noConfiguration _ | .missingFields _ _ | .unresolved _ _ _ | .badRules _ _ => true
  | .invalidDescriptor _ | .invalidLegacy _ _ | .unreadable _ _ => false

/-- The names of places and of fields in an error. -/
def named : ConfigError → List String
  | .noConfiguration directory => [directory.text]
  | .missingFields path fields => path.text :: fields
  | .unresolved _ _ _ => []
  | .badRules path _ | .invalidDescriptor path | .invalidLegacy path _ | .unreadable path _ =>
      [path.text]

/-- The values that an error shows as they stand in the files of a module. -/
def quoted : ConfigError → List String
  | .unresolved _ tagPrefix commitScope => [tagPrefix, commitScope]
  | .badRules _ error => error.quoted
  | .noConfiguration _ | .missingFields _ _ | .invalidDescriptor _ | .invalidLegacy _ _ |
      .unreadable _ _ => []

end ConfigError

theorem RecordError.isOneLine_message_iff (error : RecordError) :
    Text.IsOneLine error.message ↔ ∀ value ∈ error.quoted, Text.IsOneLine value := by
  rcases error with ⟨index, fault⟩
  have ruleLine : Text.IsOneLine "rule #" := Text.isOneLine_ofList (by decide)
  have indexLine := Text.isOneLine_toString index
  cases fault with
  | missingRelease =>
      have faultLine : Text.IsOneLine " has no `release` field" :=
        Text.isOneLine_ofList (by decide)
      simp only [message, Text.isOneLine_append, ruleLine, indexLine, faultLine]
      simp [quoted]
  | invalidRelease shown =>
      have faultLine : Text.IsOneLine " has invalid release value " :=
        Text.isOneLine_ofList (by decide)
      have expectedLine :
          Text.IsOneLine " (expected \"major\", \"minor\", \"patch\" or false)" :=
        Text.isOneLine_ofList (by decide)
      simp only [message, Text.isOneLine_append, ruleLine, indexLine, faultLine, expectedLine]
      simp [quoted]
  | emptyScope =>
      have faultLine : Text.IsOneLine " negates an empty scope" :=
        Text.isOneLine_ofList (by decide)
      simp only [message, Text.isOneLine_append, ruleLine, indexLine, faultLine]
      simp [quoted]

theorem UnresolvedField.isOneLine_name (field : UnresolvedField) : Text.IsOneLine field.name := by
  cases field <;> exact Text.isOneLine_ofList (by decide)

theorem ConfigError.isOneLine_message_iff {error : ConfigError} (composed : error.isComposed)
    (namedLines : ∀ name ∈ error.named, Text.IsOneLine name) (refusals : Refusals) :
    Text.IsOneLine (error.message refusals) ↔ ∀ value ∈ error.quoted, Text.IsOneLine value := by
  unfold message
  cases error with
  | noConfiguration directory =>
      have directoryLine := namedLines directory.text (List.mem_singleton_self _)
      have faultLine : Text.IsOneLine "no module configuration found in " :=
        Text.isOneLine_ofList (by decide)
      simp only [Text.isOneLine_append, directoryLine, faultLine]
      simp [quoted]
  | missingFields path fields =>
      have pathLine := namedLines path.text List.mem_cons_self
      have faultLine : Text.IsOneLine " is missing required field(s): " :=
        Text.isOneLine_ofList (by decide)
      have fieldLines : Text.IsOneLine (", ".intercalate fields) := by
        apply Text.isOneLine_intercalate (by decide)
        intro field fieldMem
        exact namedLines field (List.mem_cons_of_mem _ fieldMem)
      simp only [Text.isOneLine_append, pathLine, faultLine, fieldLines]
      simp [quoted]
  | unresolved field tagPrefix commitScope =>
      have faultLine : Text.IsOneLine "could not determine " := Text.isOneLine_ofList (by decide)
      have foundLine : Text.IsOneLine " from module config (found: tag_prefix=\"" :=
        Text.isOneLine_ofList (by decide)
      have scopeLine : Text.IsOneLine "\", commit_scope=\"" := Text.isOneLine_ofList (by decide)
      have endLine : Text.IsOneLine "\")" := Text.isOneLine_ofList (by decide)
      simp only [Text.isOneLine_append, field.isOneLine_name, faultLine, foundLine, scopeLine,
        endLine]
      simp [quoted]
  | badRules path cause =>
      have pathLine := namedLines path.text (List.mem_singleton_self _)
      have faultLine : Text.IsOneLine "release rules in " := Text.isOneLine_ofList (by decide)
      have colonLine : Text.IsOneLine ": " := Text.isOneLine_ofList (by decide)
      simp only [Text.isOneLine_append, pathLine, faultLine, colonLine,
        cause.isOneLine_message_iff]
      simp [quoted]
  | invalidDescriptor path => contradiction
  | invalidLegacy path part => contradiction
  | unreadable path cause => contradiction

/-! ## What a resolution names -/

theorem Descriptor.missingFields_subset (descriptor : Descriptor) :
    descriptor.missingFields ⊆ ["name", "title", "commit_scope", "tag_prefix"] := by
  intro field fieldMem
  rcases List.mem_filterMap.mp fieldMem with ⟨⟨name, value?⟩, declaredMem, missing⟩
  rcases Option.ite_none_right_eq_some.mp missing with ⟨_, isName⟩
  cases isName
  simp only [List.mem_cons, Prod.mk.injEq, List.not_mem_nil, or_false] at declaredMem
  rcases declaredMem with ⟨rfl, _⟩ | ⟨rfl, _⟩ | ⟨rfl, _⟩ | ⟨rfl, _⟩ <;> simp

theorem Descriptor.isOneLine_missingFields (descriptor : Descriptor) :
    ∀ field ∈ descriptor.missingFields, Text.IsOneLine field := by
  intro field fieldMem
  have fixed : ∀ name ∈ ["name", "title", "commit_scope", "tag_prefix"], Text.IsOneLine name := by
    decide
  exact fixed field (descriptor.missingFields_subset fieldMem)

theorem Descriptor.isOneLine_named {files : FileSystem} {settings : Settings} {path : Path}
    (pathLine : Text.IsOneLine path.text) {error : ConfigError}
    (refused : read files settings path = .error error) :
    ∀ name ∈ error.named, Text.IsOneLine name := by
  rcases read_eq_error refused with ⟨_, rfl⟩ | rfl | ⟨descriptor, rfl⟩ | ⟨_, rfl⟩
  · simpa [ConfigError.named] using pathLine
  · simpa [ConfigError.named] using pathLine
  · simpa [ConfigError.named] using ⟨pathLine, descriptor.isOneLine_missingFields⟩
  · simpa [ConfigError.named] using pathLine

theorem LegacySource.isOneLine_named {files : FileSystem} {path : Path}
    (pathLine : Text.IsOneLine path.text) {error : ConfigError}
    (refused : read files path = .error error) : ∀ name ∈ error.named, Text.IsOneLine name := by
  rcases read_eq_error refused with ⟨_, rfl⟩ | ⟨_, rfl⟩ | ⟨_, rfl⟩ <;>
    simpa [ConfigError.named] using pathLine

namespace Module

variable {files : FileSystem} {settings : Settings} {directory : Path} {cache : LegacyCache}
  {error : ConfigError}

theorem isOneLine_named (directoryLine : Text.IsOneLine directory.text)
    (descriptorLine : Text.IsOneLine settings.descriptorFile)
    (legacyLine : Text.IsOneLine settings.legacyFile)
    (refused : (resolve files settings cache directory).1 = .error error) :
    ∀ name ∈ error.named, Text.IsOneLine name := by
  have descriptorPathLine := Path.isOneLine_join directoryLine descriptorLine
  have legacyPathLine := Path.isOneLine_join directoryLine legacyLine
  cases described : files.isFile (settings.descriptorPath directory) with
  | true =>
      rw [resolve_of_descriptor described] at refused
      exact Descriptor.isOneLine_named descriptorPathLine (ofDescriptor_eq_error_iff.mp refused)
  | false =>
      cases documented : files.isFile (settings.legacyPath directory) with
      | true =>
          rw [resolve_of_legacy described documented] at refused
          rcases Except.bind_eq_error_iff.mp refused with unread | ⟨_, _, unidentified⟩
          · exact LegacySource.isOneLine_named legacyPathLine unread
          · rcases ofLegacy_eq_error unidentified with ⟨_, _, _, rfl⟩
            simp [ConfigError.named]
      | false =>
          rw [resolve_of_neither described documented] at refused
          cases refused
          simpa [ConfigError.named] using directoryLine

end Module

/-! ## What the commands print -/

namespace CommandLine

variable {surroundings : Surroundings} {directory : Path} {error : ConfigError}

theorem err_runIdentity {arguments : List String}
    (named : identityDirectory arguments = .ok directory)
    (refused : (Module.resolve surroundings.files .standard .empty directory).1 = .error error) :
    (runIdentity surroundings arguments).err =
      line ("Error: " ++ error.message surroundings.words.refusals) := by
  simp only [runIdentity, named, refused]

theorem err_runConfig {settings : Settings}
    (refused : (Module.resolve surroundings.files settings .empty directory).1 = .error error) :
    (runConfig surroundings settings directory).err =
      line ("ERROR: " ++ ": ".intercalate
        (error.message surroundings.words.refusals :: error.cause?.toList)) := by
  simp only [runConfig, refused, failed]

/-- A message shows the error behind it already, so that error brings no line feed of its own when
it is shown once more. -/
theorem isOneLine_chain_iff {refusals : Refusals} :
    Text.IsOneLine (": ".intercalate (error.message refusals :: error.cause?.toList)) ↔
      Text.IsOneLine (error.message refusals) := by
  have behind : ∀ cause ∈ error.cause?,
      Text.IsOneLine (error.message refusals) → Text.IsOneLine cause := by
    unfold ConfigError.cause? ConfigError.message
    cases error <;> simp [Text.isOneLine_append]
  cases caused : error.cause? with
  | none => simp
  | some cause =>
      have colonLine : Text.IsOneLine ": " := Text.isOneLine_ofList (by decide)
      simpa [Text.isOneLine_append, colonLine] using behind cause caused

/-- Where a directory whose path is one line is refused by an error that is worded here, both
commands end with code 1 and print nothing but a diagnostic. The diagnostic is one line exactly if
the values are that it shows from the files of the module, whichever way the arguments name the
directory. Under other settings than the standard ones this asks that the names of the files, which
the settings give, are one line too. -/
theorem diagnostic_one_line_iff {surroundings : Surroundings} {directory : Path}
    (directoryLine : Text.IsOneLine directory.text) :
    (∀ (arguments : List String) (error : ConfigError),
      identityDirectory arguments = .ok directory →
      (Module.resolve surroundings.files .standard .empty directory).1 = .error error →
      error.isComposed →
        (runIdentity surroundings arguments).Fails ∧
          (IsLine (runIdentity surroundings arguments).err ↔
            ∀ value ∈ error.quoted, Text.IsOneLine value)) ∧
    (∀ (arguments : List String) (settings? : Option Path) (settings : Settings)
        (error : ConfigError),
      Invocation.ofArguments arguments = .ok ⟨settings?, .config directory⟩ →
      Settings.load surroundings.files surroundings.userDirectory? settings? = .ok settings →
      Text.IsOneLine settings.descriptorFile → Text.IsOneLine settings.legacyFile →
      (Module.resolve surroundings.files settings .empty directory).1 = .error error →
      error.isComposed →
        (run surroundings arguments).Fails ∧
          (IsLine (run surroundings arguments).err ↔
            ∀ value ∈ error.quoted, Text.IsOneLine value)) := by
  constructor
  · intro arguments error named refused composed
    have namedLines := Module.isOneLine_named directoryLine (by decide) (by decide) refused
    refine ⟨fails_runIdentity named refused, ?_⟩
    rw [err_runIdentity named refused, isLine_line, Text.isOneLine_append,
      ConfigError.isOneLine_message_iff composed namedLines]
    exact and_iff_right (by decide)
  · intro arguments settings? settings error asked loaded descriptorLine legacyLine refused composed
    have namedLines := Module.isOneLine_named directoryLine descriptorLine legacyLine refused
    rw [run_command asked loaded, runCommand]
    refine ⟨fails_runConfig refused, ?_⟩
    rw [err_runConfig refused, isLine_line, Text.isOneLine_append, isOneLine_chain_iff,
      ConfigError.isOneLine_message_iff composed namedLines]
    exact and_iff_right (by decide)

/-- The tag prefix that is shown holds a quote and a carriage return, and the diagnostic is still
one line. -/
theorem diagnostic_one_line_iff_carriage_return :
    let files := (FileTree.empty.write ⟨"m/.releaserc.json"⟩
      (.text "[\"S\\\"\\rv\"]")).toFileSystem
    let surroundings : Surroundings := ⟨files, none, .text "", .none, .brief⟩
    let error : ConfigError := .unresolved .commitScope "S\"\rv" ""
    (Text.IsOneLine "m" ∧ identityDirectory ["m"] = .ok ⟨"m"⟩ ∧
      Invocation.ofArguments ["config", "m"] = .ok ⟨none, .config ⟨"m"⟩⟩ ∧
      Settings.load files none none = .ok .standard ∧
      (Module.resolve files .standard .empty ⟨"m"⟩).1 = .error error ∧ error.isComposed) ∧
    IsLine (runIdentity surroundings ["m"]).err ∧
      IsLine (run surroundings ["config", "m"]).err := by
  intro files surroundings error
  have directoryLine : Text.IsOneLine "m" := by
    decide
  have named : identityDirectory ["m"] = .ok ⟨"m"⟩ := by
    decide
  have asked : Invocation.ofArguments ["config", "m"] = .ok ⟨none, .config ⟨"m"⟩⟩ := by
    decide +kernel
  have loaded : Settings.load files none none = .ok .standard := by
    decide +kernel
  have refused : (Module.resolve files .standard .empty ⟨"m"⟩).1 = .error error := by
    decide +kernel
  have oneLine : ∀ value ∈ error.quoted, Text.IsOneLine value := by
    decide
  have diagnostics := @diagnostic_one_line_iff surroundings ⟨"m"⟩ directoryLine
  refine ⟨⟨directoryLine, named, asked, loaded, refused, rfl⟩, ?_, ?_⟩
  · exact (diagnostics.1 _ error named refused rfl).2.mpr oneLine
  · exact (diagnostics.2 _ _ _ error asked loaded (by decide) (by decide) refused rfl).2.mpr oneLine

/-- A rule names a release of two lines. It is shown as it stands in the descriptor, and neither
command prints one line. -/
theorem release_of_two_lines_breaks_diagnostic :
    let text := "name=\"m\"\ntitle=\"M\"\ncommit_scope=\"c\"\ntag_prefix=\"Sv\"\n" ++
      "release_rules=[\x7brelease=\"a\\nb\"\x7d]\n"
    let files := (FileTree.empty.write ⟨"m/module.toml"⟩ (.text text)).toFileSystem
    let surroundings : Surroundings := ⟨files, none, .text "", .none, .brief⟩
    let error : ConfigError := .badRules ⟨"m/module.toml"⟩ ⟨0, .invalidRelease "\"a\nb\""⟩
    (Module.resolve files .standard .empty ⟨"m"⟩).1 = .error error ∧ error.isComposed ∧
      ¬IsLine (runIdentity surroundings ["m"]).err ∧
      ¬IsLine (run surroundings ["config", "m"]).err := by
  intro text files surroundings error
  have refused : (Module.resolve files .standard .empty ⟨"m"⟩).1 = .error error := by
    decide +kernel
  have named : identityDirectory ["m"] = .ok ⟨"m"⟩ := by
    decide
  have asked : Invocation.ofArguments ["config", "m"] = .ok ⟨none, .config ⟨"m"⟩⟩ := by
    decide +kernel
  have loaded : Settings.load files none none = .ok .standard := by
    decide +kernel
  have severalLines : ¬Text.IsOneLine (error.message surroundings.words.refusals) := by
    rw [ConfigError.isOneLine_message_iff rfl (by decide)]
    decide
  refine ⟨refused, rfl, ?_, ?_⟩
  · rw [err_runIdentity named refused, isLine_line, Text.isOneLine_append]
    exact fun lines => severalLines lines.2
  · rw [run_command asked loaded, runCommand, err_runConfig refused, isLine_line,
      Text.isOneLine_append, isOneLine_chain_iff]
    exact fun lines => severalLines lines.2

end CommandLine

end ReleaseAdvisor
