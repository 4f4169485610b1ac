import ReleaseAdvisor.Proofs.Analysis.ReportText
import ReleaseAdvisor.Proofs.Json.Limits
import ReleaseAdvisor.Proofs.Json.OneLine
import ReleaseAdvisor.Proofs.Module.Resolution
import ReleaseAdvisor.Proofs.Settings

/-!
# The two commands that print an identity

One command prints the tag prefix and the commit scope of a module, always under the standard
settings; the subcommand `config` prints all of the identity under the settings that it loads. Where
no settings stand they resolve the same directory in the same way, so they succeed together. What
they print is one object in the compact layout, and its values are read back as they are, whatever
characters they hold.
-/

namespace ReleaseAdvisor

namespace CommandLine

theorem run_command {surroundings : Surroundings} {arguments : List String}
    {settings? : Option Path} {settings : Settings} {command : Command}
    (asked : Invocation.ofArguments arguments = .ok ⟨settings?, command⟩)
    (loaded : Settings.load surroundings.files surroundings.userDirectory? settings? =
      .ok settings) :
    run surroundings arguments = runCommand surroundings settings command := by
  rw [run, asked]
  simp only [runInvocation, loaded]

/-! ## Arguments that name a directory -/

theorem items_operand {text : String} (isOperand : text.toList.head? ≠ some '-')
    (specs : List OptionSpec) (rest : List String) :
    items specs .anything (text :: rest) = .operand text rest :: items specs .anything rest := by
  have read : argument specs text rest = ([.operand text rest], .anything) := by
    unfold argument
    split
    · rename_i dashes
      simp [dashes] at isOperand
    · rename_i dashes
      simp [dashes] at isOperand
    · rfl
    · rename_i dashes
      simp [dashes] at isOperand
    · rfl
  rw [items, read]
  rfl

section Directory

variable {directory : String} (nonempty : directory ≠ "")
  (isOperand : directory.toList.head? ≠ some '-')

include nonempty isOperand

theorem ofArguments_config :
    Invocation.ofArguments ["config", directory] = .ok ⟨none, .config ⟨directory⟩⟩ := by
  have taken : takeAll .config (some 1) .none (items plainSpecs .anything [directory]) =
      .ok { Given.none with operands := [directory] } := by
    rw [items_operand isOperand]
    simp [items, takeAll, Given.take, Given.none, nonempty, bind, Except.bind]
  rw [Invocation.ofArguments, items_operand (by decide), takeGlobal, commandOf, taken]
  rfl

theorem identityDirectory_eq : identityDirectory [directory] = .ok ⟨directory⟩ := by
  rw [identityDirectory, items_operand isOperand]
  simp [items, identityDirectory.takeDirectory, identityDirectory.checked, nonempty]

theorem run_config {surroundings : Surroundings}
    (absent : ∀ place ∈ Settings.standardPlaces surroundings.userDirectory?,
      surroundings.files.present place = false) :
    run surroundings ["config", directory] = runConfig surroundings .standard ⟨directory⟩ :=
  run_command (ofArguments_config nonempty isOperand) (Settings.load_standard absent)

end Directory

/-! ## What they print -/

/-- An output that is one line of text in which a reader finds an object with the given members. -/
structure Output.PrintsObject (output : Output) (members : List (String × Json)) : Prop where
  code : output.code = 0
  oneLine : ∃ content, output.out = line content ∧ '\n' ∉ content.toList
  read : Json.parse? output.out = some (.object members)

/-- An output that shows nothing but a failure. -/
structure Output.Fails (output : Output) : Prop where
  code : output.code = 1
  silent : output.out = ""

theorem printsObject_line {members : List (String × Json)}
    (within : ∀ member ∈ members, Json.Within 126 member.2) (err : String) :
    Output.PrintsObject ⟨0, line (Json.object members).toLine, err⟩ members where
  code := rfl
  oneLine := ⟨_, rfl, Json.lineFeed_not_mem_toLine _⟩
  read := Json.parse?_eq_some_iff.mpr ⟨Json.read?_toLine_ended _, Json.Within.object within⟩

section Resolved

variable {surroundings : Surroundings} {settings : Settings} {directory : Path}

theorem printsObject_runConfig {module : Module}
    (resolved : (Module.resolve surroundings.files settings .empty directory).1 = .ok module) :
    (runConfig surroundings settings directory).PrintsObject [
      ("commit_scope", .string module.identity.commitScope),
      ("name", .string module.identity.name),
      ("source", .string module.source.name),
      ("tag_prefix", .string module.identity.tagPrefix),
      ("title", .string module.identity.title)] := by
  rw [runConfig, resolved]
  apply printsObject_line
  simp [Json.Within.string]

theorem fails_runConfig {error : ConfigError}
    (refused : (Module.resolve surroundings.files settings .empty directory).1 = .error error) :
    (runConfig surroundings settings directory).Fails := by
  rw [runConfig, refused]
  exact ⟨rfl, rfl⟩

variable {arguments : List String} (named : identityDirectory arguments = .ok directory)

include named

theorem printsObject_runIdentity {module : Module}
    (resolved : (Module.resolve surroundings.files .standard .empty directory).1 = .ok module) :
    (runIdentity surroundings arguments).PrintsObject [
      ("tag_prefix", .string module.identity.tagPrefix),
      ("commit_scope", .string module.identity.commitScope)] := by
  simp only [runIdentity, named, resolved]
  apply printsObject_line
  simp [Json.Within.string]

theorem fails_runIdentity {error : ConfigError}
    (refused : (Module.resolve surroundings.files .standard .empty directory).1 = .error error) :
    (runIdentity surroundings arguments).Fails := by
  simp only [runIdentity, named, refused]
  exact ⟨rfl, rfl⟩

end Resolved

/-- Where no settings stand, the two commands succeed on the same directories, which are those that
resolve under the standard settings. Each then prints one line that a strict reader reads as an
object with the tag prefix and the commit scope of the module, and the shorter object has nothing
else. Otherwise both end with code 1 and print nothing. -/
theorem config_commands_agree {surroundings : Surroundings} {directory : String}
    (nonempty : directory ≠ "") (isOperand : directory.toList.head? ≠ some '-')
    (absent : ∀ place ∈ Settings.standardPlaces surroundings.userDirectory?,
      surroundings.files.present place = false) (cache : LegacyCache) :
    let brief := runIdentity surroundings [directory]
    let full := run surroundings ["config", directory]
    let resolution := (Module.resolve surroundings.files .standard cache ⟨directory⟩).1
    (brief.code = 0 ↔ ∃ module, resolution = .ok module) ∧
      (full.code = 0 ↔ ∃ module, resolution = .ok module) ∧
      (∀ module, resolution = .ok module →
        brief.PrintsObject [("tag_prefix", .string module.identity.tagPrefix),
          ("commit_scope", .string module.identity.commitScope)] ∧
        ∃ members, full.PrintsObject members ∧
          Json.required? members "tag_prefix" Json.text? = some module.identity.tagPrefix ∧
          Json.required? members "commit_scope" Json.text? = some module.identity.commitScope) ∧
      ∀ error, resolution = .error error → brief.Fails ∧ full.Fails := by
  intro brief full resolution
  have named := identityDirectory_eq nonempty isOperand
  have fullEq : full = runConfig surroundings .standard ⟨directory⟩ :=
    run_config nonempty isOperand absent
  have resolutionEq : resolution =
      (Module.resolve surroundings.files .standard .empty ⟨directory⟩).1 :=
    Module.resolve_fst_eq _ _ _ _ _
  rw [fullEq, resolutionEq]
  cases resolved : (Module.resolve surroundings.files .standard .empty ⟨directory⟩).1 with
  | ok module =>
      have briefPrints := printsObject_runIdentity named resolved
      have fullPrints := printsObject_runConfig resolved
      refine ⟨?_, ?_, ?_, by simp⟩
      · simpa using briefPrints.code
      · simpa using fullPrints.code
      · rintro _ ⟨⟩
        exact ⟨briefPrints, _, fullPrints, rfl, rfl⟩
  | error error =>
      have briefFails := fails_runIdentity named resolved
      have fullFails := fails_runConfig resolved
      refine ⟨?_, ?_, by simp, ?_⟩
      · simp [brief, briefFails.code]
      · simp [fullFails.code]
      · rintro _ _
        exact ⟨briefFails, fullFails⟩

/-- The tag prefix holds a line feed, and the commit scope a quote and another control. -/
theorem config_commands_agree_escaped :
    let text := "name=\"m\"\ntitle=\"M\"\ncommit_scope=\"c\\\"\\u0001c\"\ntag_prefix=\"S\\nv\"\n"
    let files := (FileTree.empty.write ⟨"m/module.toml"⟩ (.text text)).toFileSystem
    let surroundings : Surroundings := ⟨files, some ⟨"xdg"⟩, .text "", .none, .brief⟩
    let identity : Identity := ⟨"m", "M", "c\"\x01c", "S\nv"⟩
    (∃ rules, (Module.resolve files .standard .empty ⟨"m"⟩).1 =
        .ok ⟨⟨"m"⟩, identity, .descriptor, rules⟩) ∧
      (∀ place ∈ Settings.standardPlaces surroundings.userDirectory?,
        files.present place = false) ∧
      (runIdentity surroundings ["m"]).PrintsObject
        [("tag_prefix", .string "S\nv"), ("commit_scope", .string "c\"\x01c")] := by
  intro text files surroundings identity
  have resolved : (Module.resolve files .standard .empty ⟨"m"⟩).1 =
      .ok ⟨⟨"m"⟩, identity, .descriptor, .standard identity.commitScope⟩ := by
    decide +kernel
  have absent : ∀ place ∈ Settings.standardPlaces surroundings.userDirectory?,
      files.present place = false := by
    decide +kernel
  have nonempty : "m" ≠ "" := by decide
  have agree := config_commands_agree nonempty (by decide) absent .empty
  rcases agree with ⟨_, _, printed, _⟩
  exact ⟨⟨_, resolved⟩, absent, (printed _ resolved).1⟩

end CommandLine

end ReleaseAdvisor
