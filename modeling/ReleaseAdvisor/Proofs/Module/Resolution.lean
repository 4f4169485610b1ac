import ReleaseAdvisor.Analysis.Report
import ReleaseAdvisor.Module.Resolution
import ReleaseAdvisor.Proofs.Module.Cache
import ReleaseAdvisor.Proofs.Result

/-!
# Where a resolution comes from

Each of the three ways to resolve a directory has its own errors, and each looks at one file only.
A directory with a descriptor is resolved from the descriptor's content, whatever stands elsewhere;
one without is resolved from the content of its legacy document. The cache never takes part in the
result, and it only changes where a legacy document is read.
-/

namespace ReleaseAdvisor

namespace Descriptor

/-- A descriptor that is refused is reported with its own path. -/
theorem read_eq_error {files : FileSystem} {settings : Settings} {path : Path}
    {error : ConfigError} (refused : read files settings path = .error error) :
    (∃ cause, error = .unreadable path cause) ∨ error = .invalidDescriptor path ∨
      (∃ descriptor : Descriptor, error = .missingFields path descriptor.missingFields) ∨
        ∃ cause, error = .badRules path cause := by
  unfold read at refused
  split at refused
  · rename_i cause _
    cases refused
    exact Or.inl ⟨cause, rfl⟩
  · split at refused
    · cases refused
      exact Or.inr (Or.inl rfl)
    · rename_i descriptor _
      right
      right
      unfold resolve at refused
      split at refused
      · split at refused
        · rename_i cause _
          cases refused
          exact Or.inr ⟨cause, rfl⟩
        · contradiction
      · cases refused
        exact Or.inl ⟨descriptor, rfl⟩

theorem read_congr {files others : FileSystem} {path : Path}
    (agree : files.read path = others.read path) (settings : Settings) :
    read files settings path = read others settings path := by
  rw [read, read, agree]

end Descriptor

namespace LegacySource

/-- A legacy document that is refused is reported with its own path. -/
theorem read_eq_error {files : FileSystem} {path : Path} {error : ConfigError}
    (refused : read files path = .error error) :
    (∃ cause, error = .unreadable path cause) ∨ (∃ part, error = .invalidLegacy path part) ∨
      ∃ cause, error = .badRules path cause := by
  unfold read at refused
  split at refused
  · rename_i cause _
    cases refused
    exact Or.inl ⟨cause, rfl⟩
  · right
    unfold parse at refused
    split at refused
    · cases refused
      exact Or.inl ⟨.document, rfl⟩
    · split at refused
      · cases refused
        exact Or.inl ⟨.options, rfl⟩
      · split at refused
        · rename_i cause _
          cases refused
          exact Or.inr ⟨cause, rfl⟩
        · contradiction

theorem read_congr {files others : FileSystem} {path : Path}
    (agree : files.read path = others.read path) : read files path = read others path := by
  rw [read, read, agree]

/-- What a document says does not depend on where it stands; only its errors name the place. -/
theorem toOption_read_congr {files : FileSystem} {path other : Path}
    (agree : files.read path = files.read other) :
    (read files path).toOption = (read files other).toOption := by
  unfold read parse
  rw [agree]
  split
  · rfl
  · split
    · rfl
    · split
      · rfl
      · split <;> rfl

theorem identity_eq_error {source : LegacySource} {name placeholder : String}
    {error : ConfigError} (refused : source.identity name placeholder = .error error) :
    ∃ field tagPrefix commitScope, error = .unresolved field tagPrefix commitScope := by
  simp only [identity] at refused
  split at refused
  · cases refused
    exact ⟨_, _, _, rfl⟩
  · cases refused
    exact ⟨_, _, _, rfl⟩
  · cases refused
    exact ⟨_, _, _, rfl⟩
  · contradiction

end LegacySource

theorem FileSystem.isFile_of_entry {files : FileSystem} {path : Path} {content : FileContent}
    (stands : files.entry path = .ok (.file content)) : files.isFile path := by
  rw [isFile, stands]

namespace Module

/-- Whether resolving a directory reloads the legacy document at a path. -/
def reloads (files : FileSystem) (settings : Settings) (directory path : Path) : Bool :=
  !files.isFile (settings.descriptorPath directory) &&
    files.isFile (settings.legacyPath directory) && (settings.legacyPath directory).same path

variable {files others : FileSystem} {settings : Settings} {directory : Path}
  {cache otherCache : LegacyCache}

theorem reloads_iff {path : Path} :
    reloads files settings directory path ↔
      (files.isFile (settings.descriptorPath directory) = false ∧
        files.isFile (settings.legacyPath directory)) ∧
      (settings.legacyPath directory).same path := by
  simp [reloads]

theorem toOption_read_eq_of_reloads (coherent : files.Coherent) {other path : Path}
    (reloadsPath : reloads files settings directory path)
    (otherReloads : reloads files settings other path) :
    (LegacySource.read files (settings.legacyPath directory)).toOption =
      (LegacySource.read files (settings.legacyPath other)).toOption := by
  rcases reloads_iff.mp reloadsPath with ⟨⟨_, documented⟩, same⟩
  rcases reloads_iff.mp otherReloads with ⟨⟨_, otherDocumented⟩, otherSame⟩
  have sameDocument : (settings.legacyPath directory).same (settings.legacyPath other) := by
    rw [Path.same_congr same, Path.same_comm]
    exact otherSame
  exact LegacySource.toOption_read_congr
    (coherent _ _ sameDocument documented otherDocumented)

theorem resolve_of_descriptor (described : files.isFile (settings.descriptorPath directory)) :
    resolve files settings cache directory = (ofDescriptor files settings directory, cache) := by
  rw [resolve, if_pos described]

theorem resolve_of_legacy (undescribed : files.isFile (settings.descriptorPath directory) = false)
    (documented : files.isFile (settings.legacyPath directory)) :
    resolve files settings cache directory =
      ((LegacySource.read files (settings.legacyPath directory)).bind (ofLegacy settings directory),
        (cache.reload files (settings.legacyPath directory)).2) := by
  simp [resolve, undescribed, documented]

theorem resolve_of_neither (undescribed : files.isFile (settings.descriptorPath directory) = false)
    (undocumented : files.isFile (settings.legacyPath directory) = false) :
    resolve files settings cache directory = (.error (.noConfiguration directory), cache) := by
  simp [resolve, undescribed, undocumented]

/-- What a directory resolves to does not depend on the cache. -/
theorem resolve_fst_eq (files : FileSystem) (settings : Settings) (cache otherCache : LegacyCache)
    (directory : Path) :
    (resolve files settings cache directory).1 =
      (resolve files settings otherCache directory).1 := by
  cases described : files.isFile (settings.descriptorPath directory) with
  | true => rw [resolve_of_descriptor described, resolve_of_descriptor described]
  | false =>
      cases documented : files.isFile (settings.legacyPath directory) with
      | true => rw [resolve_of_legacy described documented, resolve_of_legacy described documented]
      | false =>
          rw [resolve_of_neither described documented, resolve_of_neither described documented]

/-- So an analysis has the outcomes of its directories one by one. -/
theorem analyzeAll_fst_eq (history : List Commit) (cache : LegacyCache)
    (directories : List Path) :
    (analyzeAll files settings history cache directories).1 =
      directories.map fun directory => (outcome files settings history .empty directory).1 := by
  induction directories generalizing cache with
  | nil => rfl
  | cons directory rest ih =>
      simp only [analyzeAll, outcome, List.map_cons, List.cons.injEq]
      rw [resolve_fst_eq files settings cache .empty directory]
      exact ⟨rfl, ih _⟩

theorem ofDescriptor_eq_ok_iff {module : Module} :
    ofDescriptor files settings directory = .ok module ↔
      ∃ identity rules,
        Descriptor.read files settings (settings.descriptorPath directory) =
            .ok (identity, rules) ∧
          ⟨directory, identity, .descriptor, rules⟩ = module := by
  simp [ofDescriptor, Except.map_eq_ok_iff]

theorem ofDescriptor_eq_error_iff {error : ConfigError} :
    ofDescriptor files settings directory = .error error ↔
      Descriptor.read files settings (settings.descriptorPath directory) = .error error :=
  Except.map_eq_error_iff

theorem ofLegacy_eq_ok_iff {source : LegacySource} {module : Module} :
    ofLegacy settings directory source = .ok module ↔
      ∃ identity,
        source.identity (directory.name?.getD "") settings.versionPlaceholder = .ok identity ∧
          ⟨directory, identity, .legacy, source.rules⟩ = module :=
  Except.map_eq_ok_iff

theorem ofLegacy_eq_error {source : LegacySource} {error : ConfigError}
    (refused : ofLegacy settings directory source = .error error) :
    ∃ field tagPrefix commitScope, error = .unresolved field tagPrefix commitScope :=
  LegacySource.identity_eq_error (Except.map_eq_error_iff.mp refused)

/-- A directory that resolves was read from one of its two files. -/
theorem read_of_resolve_eq_ok {module : Module}
    (resolved : (resolve files settings cache directory).1 = .ok module) :
    (∃ identity rules,
      Descriptor.read files settings (settings.descriptorPath directory) = .ok (identity, rules) ∧
        ⟨directory, identity, .descriptor, rules⟩ = module) ∨
    ∃ source identity, LegacySource.read files (settings.legacyPath directory) = .ok source ∧
      source.identity (directory.name?.getD "") settings.versionPlaceholder = .ok identity ∧
        ⟨directory, identity, .legacy, source.rules⟩ = module := by
  cases described : files.isFile (settings.descriptorPath directory) with
  | true =>
      rw [resolve_of_descriptor described] at resolved
      exact Or.inl (ofDescriptor_eq_ok_iff.mp resolved)
  | false =>
      cases documented : files.isFile (settings.legacyPath directory) with
      | true =>
          rw [resolve_of_legacy described documented] at resolved
          rcases Except.bind_eq_ok_iff.mp resolved with ⟨source, read, inferred⟩
          rcases ofLegacy_eq_ok_iff.mp inferred with ⟨identity, identified, isModule⟩
          exact Or.inr ⟨source, identity, read, identified, isModule⟩
      | false =>
          rw [resolve_of_neither described documented] at resolved
          contradiction

theorem directory_eq_of_resolve {module : Module}
    (resolved : (resolve files settings cache directory).1 = .ok module) :
    module.directory = directory := by
  rcases read_of_resolve_eq_ok resolved with ⟨_, _, _, rfl⟩ | ⟨_, _, _, _, rfl⟩ <;> rfl

theorem resolve_eq_of_descriptor {content : FileContent}
    (stands : files.entry (settings.descriptorPath directory) = .ok (.file content))
    (standsToo : others.entry (settings.descriptorPath directory) = .ok (.file content)) :
    (resolve files settings cache directory).1 =
      (resolve others settings otherCache directory).1 := by
  have agree : files.read (settings.descriptorPath directory) =
      others.read (settings.descriptorPath directory) := by
    rw [FileSystem.read, FileSystem.read, stands, standsToo]
  rw [resolve_of_descriptor (FileSystem.isFile_of_entry stands),
    resolve_of_descriptor (FileSystem.isFile_of_entry standsToo), ofDescriptor, ofDescriptor,
    Descriptor.read_congr agree]

theorem resolve_eq_of_legacy {content : FileContent}
    (undescribed : files.isFile (settings.descriptorPath directory) = false)
    (undescribedToo : others.isFile (settings.descriptorPath directory) = false)
    (stands : files.entry (settings.legacyPath directory) = .ok (.file content))
    (standsToo : others.entry (settings.legacyPath directory) = .ok (.file content)) :
    (resolve files settings cache directory).1 =
      (resolve others settings otherCache directory).1 := by
  have agree : files.read (settings.legacyPath directory) =
      others.read (settings.legacyPath directory) := by
    rw [FileSystem.read, FileSystem.read, stands, standsToo]
  rw [resolve_of_legacy undescribed (FileSystem.isFile_of_entry stands),
    resolve_of_legacy undescribedToo (FileSystem.isFile_of_entry standsToo),
    LegacySource.read_congr agree]

theorem resolve_descriptor_ne_noConfiguration {place : Path}
    (described : files.isFile (settings.descriptorPath directory)) :
    (resolve files settings cache directory).1 ≠ .error (.noConfiguration place) := by
  rw [resolve_of_descriptor described]
  intro refused
  rcases Descriptor.read_eq_error (ofDescriptor_eq_error_iff.mp refused) with
    ⟨_, impossible⟩ | impossible | ⟨_, impossible⟩ | ⟨_, impossible⟩ <;> contradiction

theorem resolve_legacy_ne_noConfiguration {place : Path}
    (undescribed : files.isFile (settings.descriptorPath directory) = false)
    (documented : files.isFile (settings.legacyPath directory)) :
    (resolve files settings cache directory).1 ≠ .error (.noConfiguration place) := by
  rw [resolve_of_legacy undescribed documented]
  intro refused
  rcases Except.bind_eq_error_iff.mp refused with unread | ⟨source, _, unidentified⟩
  · rcases LegacySource.read_eq_error unread with
      ⟨_, impossible⟩ | ⟨_, impossible⟩ | ⟨_, impossible⟩ <;> contradiction
  · rcases ofLegacy_eq_error unidentified with ⟨_, _, _, impossible⟩
    contradiction

theorem resolve_eq_noConfiguration_iff {place : Path} :
    (resolve files settings cache directory).1 = .error (.noConfiguration place) ↔
      place = directory ∧ files.isFile (settings.descriptorPath directory) = false ∧
        files.isFile (settings.legacyPath directory) = false := by
  constructor
  · intro refused
    cases described : files.isFile (settings.descriptorPath directory) with
    | true => exact absurd refused (resolve_descriptor_ne_noConfiguration described)
    | false =>
        cases documented : files.isFile (settings.legacyPath directory) with
        | true => exact absurd refused (resolve_legacy_ne_noConfiguration described documented)
        | false =>
            rw [resolve_of_neither described documented] at refused
            cases refused
            exact ⟨rfl, rfl, rfl⟩
  · rintro ⟨rfl, undescribed, undocumented⟩
    rw [resolve_of_neither undescribed undocumented]

/-- Two file systems that agree on one file of a directory resolve it alike. A descriptor, valid or
not, settles the matter: the legacy document is neither read nor blamed, and the cache stays as it
is. Without a descriptor the legacy document settles it, and only a directory with neither file has
no configuration. -/
theorem descriptor_settles_resolution (settings : Settings) (directory : Path)
    (files others : FileSystem) (cache otherCache : LegacyCache) :
    (∀ content,
      files.entry (settings.descriptorPath directory) = .ok (.file content) →
      others.entry (settings.descriptorPath directory) = .ok (.file content) →
        (resolve files settings cache directory).1 =
            (resolve others settings otherCache directory).1 ∧
          (∀ module, (resolve files settings cache directory).1 = .ok module →
            module.source ≠ .legacy) ∧
          (∀ path part,
            (resolve files settings cache directory).1 ≠ .error (.invalidLegacy path part)) ∧
          (resolve files settings cache directory).2 = cache) ∧
    (∀ content,
      files.isFile (settings.descriptorPath directory) = false →
      others.isFile (settings.descriptorPath directory) = false →
      files.entry (settings.legacyPath directory) = .ok (.file content) →
      others.entry (settings.legacyPath directory) = .ok (.file content) →
        (resolve files settings cache directory).1 =
            (resolve others settings otherCache directory).1 ∧
          ∀ module, (resolve files settings cache directory).1 = .ok module →
            module.source ≠ .descriptor) ∧
    (∀ place, (resolve files settings cache directory).1 = .error (.noConfiguration place) ↔
      place = directory ∧ files.isFile (settings.descriptorPath directory) = false ∧
        files.isFile (settings.legacyPath directory) = false) := by
  refine ⟨?_, ?_, ?_⟩
  · intro content stands standsToo
    refine ⟨resolve_eq_of_descriptor stands standsToo, ?_⟩
    rw [resolve_of_descriptor (FileSystem.isFile_of_entry stands)]
    refine ⟨?_, ?_, rfl⟩
    · intro module resolved
      rcases ofDescriptor_eq_ok_iff.mp resolved with ⟨identity, rules, _, rfl⟩
      simp
    · intro path part refused
      rcases Descriptor.read_eq_error (ofDescriptor_eq_error_iff.mp refused) with
        ⟨_, impossible⟩ | impossible | ⟨_, impossible⟩ | ⟨_, impossible⟩ <;> contradiction
  · intro content undescribed undescribedToo stands standsToo
    refine ⟨resolve_eq_of_legacy undescribed undescribedToo stands standsToo, ?_⟩
    rw [resolve_of_legacy undescribed (FileSystem.isFile_of_entry stands)]
    intro module resolved
    rcases Except.bind_eq_ok_iff.mp resolved with ⟨source, _, identified⟩
    rcases ofLegacy_eq_ok_iff.mp identified with ⟨identity, _, rfl⟩
    simp
  · intro place
    exact resolve_eq_noConfiguration_iff

/-- A broken descriptor is refused alike with and without a legacy document beside it, and a legacy
document is refused alike whatever stands in another directory. -/
theorem descriptor_settles_resolution_broken :
    let alone := (FileTree.empty.write ⟨"m/module.toml"⟩ (.text "name =")).write
      ⟨"n/.releaserc.json"⟩ (.text "[")
    let beside := alone.write ⟨"m/.releaserc.json"⟩ (.text "[null]")
    (resolve beside.toFileSystem .standard .empty ⟨"m"⟩).1 =
        (resolve alone.toFileSystem .standard .empty ⟨"m"⟩).1 ∧
      (resolve beside.toFileSystem .standard .empty ⟨"n"⟩).1 =
        (resolve alone.toFileSystem .standard .empty ⟨"n"⟩).1 := by
  intro alone beside
  have described := (descriptor_settles_resolution .standard ⟨"m"⟩ beside.toFileSystem
    alone.toFileSystem .empty .empty).1 (.text "name =") (by decide) (by decide)
  have documented := (descriptor_settles_resolution .standard ⟨"n"⟩ beside.toFileSystem
    alone.toFileSystem .empty .empty).2.1 (.text "[") (by decide) (by decide) (by decide)
      (by decide)
  exact ⟨described.1, documented.1⟩

end Module

end ReleaseAdvisor
