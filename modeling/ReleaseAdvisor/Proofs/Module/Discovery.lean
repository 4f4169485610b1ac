import Mathlib.Data.List.Nodup
import ReleaseAdvisor.Proofs.Files.Listing
import ReleaseAdvisor.Proofs.Module.CacheHistory

/-!
# Discovered modules

Discovery and resolution look for the same two files, each in its own way. A directory is found if
one of the files stands in it, and it has no configuration if neither does, so what is found is
exactly what does not fail for want of a configuration. A descriptor or a legacy document that is
broken makes no difference: the directory is found, and resolving it reports what is wrong.

The names of a listing are sorted before anything else happens to them, so the order of the listing
is gone, and where each name is listed once the order that is left is strict.
-/

namespace ReleaseAdvisor

namespace Module

/-- The names of a listing in the order in which discovery takes them. -/
def inOrder (names : List String) : List String :=
  names.mergeSort fun left right => decide (left ≤ right)

theorem inOrder_perm (names : List String) : (inOrder names).Perm names :=
  List.mergeSort_perm names _

theorem sorted_inOrder (names : List String) : (inOrder names).Pairwise (· ≤ ·) := by
  have transitive : ∀ first second third : String,
      decide (first ≤ second) → decide (second ≤ third) → decide (first ≤ third) := by
    intro first second third earlier later
    simp only [decide_eq_true_eq] at earlier later ⊢
    exact String.le_trans earlier later
  have total : ∀ left right : String, decide (left ≤ right) || decide (right ≤ left) := by
    intro left right
    simpa using String.le_total left right
  simpa [inOrder] using List.pairwise_mergeSort transitive total names

theorem inOrder_eq_of_sorted {names sorted : List String} (perm : names.Perm sorted)
    (isSorted : sorted.Pairwise (· ≤ ·)) : inOrder names = sorted :=
  List.Perm.eq_of_pairwise (fun _ _ _ _ => String.le_antisymm) (sorted_inOrder names) isSorted
    ((inOrder_perm names).trans perm)

theorem inOrder_eq_of_perm {names others : List String} (perm : names.Perm others) :
    inOrder names = inOrder others :=
  inOrder_eq_of_sorted (perm.trans (inOrder_perm others).symm) (sorted_inOrder others)

theorem strict_inOrder {names : List String} (distinct : names.Nodup) :
    (inOrder names).Pairwise (· < ·) := by
  have stillDistinct : (inOrder names).Pairwise (· ≠ ·) :=
    (inOrder_perm names).nodup_iff.mpr distinct
  refine ((sorted_inOrder names).and stillDistinct).imp ?_
  intro left right ⟨le, ne⟩
  exact String.not_le.mp fun back => ne (String.le_antisymm le back)

/-- Whether a place is a directory in which one of the two files stands. -/
def found (files : FileSystem) (settings : Settings) (directory : Path) : Bool :=
  files.isDirectory directory && settings.configures files directory

variable {files others : FileSystem} {settings : Settings} {root directory : Path}
  {directories : List Path}

theorem discover_eq_ok_iff :
    discover files settings root = .ok directories ↔
      ∃ names, files.list root = .ok names ∧
        ((inOrder names).filter fun name => found files settings (root.join name)).map root.join =
          directories := by
  simp only [discover, Except.map_eq_ok_iff, List.filter_map]
  rfl

theorem mem_discover_iff (discovered : discover files settings root = .ok directories)
    {names : List String} (listed : files.list root = .ok names) :
    directory ∈ directories ↔
      (∃ name ∈ names, root.join name = directory) ∧ found files settings directory := by
  rcases discover_eq_ok_iff.mp discovered with ⟨_, listedToo, rfl⟩
  cases listed.symm.trans listedToo
  simp only [List.mem_map, List.mem_filter, (inOrder_perm names).mem_iff]
  constructor
  · rintro ⟨name, ⟨nameMem, isFound⟩, rfl⟩
    exact ⟨⟨name, nameMem, rfl⟩, isFound⟩
  · rintro ⟨⟨name, nameMem, rfl⟩, isFound⟩
    exact ⟨name, ⟨nameMem, isFound⟩, rfl⟩

theorem found_relisted (relisted : files.Relisted others) (settings : Settings)
    (directory : Path) : found others settings directory = found files settings directory := by
  simp only [found, Settings.configures, relisted.isDirectory_eq, relisted.isFile_eq]

theorem discover_relisted (relisted : files.Relisted others)
    (discovered : discover files settings root = .ok directories) :
    discover others settings root = .ok directories := by
  rcases discover_eq_ok_iff.mp discovered with ⟨names, listed, rfl⟩
  rcases relisted.exists_list listed with ⟨otherNames, otherListed, perm⟩
  refine discover_eq_ok_iff.mpr ⟨otherNames, otherListed, ?_⟩
  simp only [inOrder_eq_of_perm perm, found_relisted relisted]

/-- What is found is a directory that has a configuration, valid or not. -/
theorem found_iff (cache : LegacyCache) :
    found files settings directory ↔
      files.isDirectory directory ∧
        ∀ place, (resolve files settings cache directory).1 ≠ .error (.noConfiguration place) := by
  have configured : settings.configures files directory ↔
      ∀ place, (resolve files settings cache directory).1 ≠ .error (.noConfiguration place) := by
    simp only [Settings.configures, ne_eq, resolve_eq_noConfiguration_iff, not_and, forall_eq,
      Bool.or_eq_true, Bool.not_eq_false]
    exact or_iff_not_imp_left.trans (by simp)
  rw [found, Bool.and_eq_true, configured]

end Module

namespace Path

/-- Below one directory, names are appended to one text. -/
theorem exists_join_eq (root : Path) :
    ∃ start, ∀ name, IsEntryName name → root.join name = ⟨start ++ name⟩ := by
  have relative : ∀ name, IsEntryName name → isAbsolute ⟨name⟩ = false := by
    intro name isName
    have noSlash := isName.noSlash
    unfold isAbsolute
    cases characters : name.toList with
    | nil => rfl
    | cons first rest =>
        rw [characters] at noSlash
        simpa using fun isSlash => noSlash (by simp [isSlash])
  by_cases isEmpty : root.text.isEmpty
  · refine ⟨"", fun name isName => ?_⟩
    simp [join, isEmpty]
  · by_cases ended : root.text.toList.getLast? == some '/'
    · refine ⟨root.text, fun name isName => ?_⟩
      simp [join, relative name isName, isEmpty, ended]
    · refine ⟨root.text ++ "/", fun name isName => ?_⟩
      simp [join, relative name isName, isEmpty, ended]

theorem join_inj {root : Path} {left right : String} (leftName : IsEntryName left)
    (rightName : IsEntryName right) (same : root.join left = root.join right) : left = right := by
  rcases exists_join_eq root with ⟨start, joined⟩
  rw [joined left leftName, joined right rightName, Path.mk.injEq] at same
  exact String.append_right_inj start |>.mp same

end Path

namespace Workspace

theorem wellListed_step {workspace : Workspace} (wellListed : workspace.tree.WellListed)
    (event : CacheEvent) : (workspace.step event).2.tree.WellListed := by
  cases event with
  | write path content => exact wellListed.write path content
  | makeDirectory path => exact wellListed.makeDirectory path
  | remove path => exact wellListed.remove path
  | reload path => exact wellListed
  | get path => exact wellListed
  | invalidate path => exact wellListed

/-- Whatever happens to the files, directories list their entries properly. -/
theorem wellListed_run {workspace : Workspace} (wellListed : workspace.tree.WellListed)
    (events : List CacheEvent) : (workspace.run events).files.WellListed := by
  apply FileTree.WellListed.toFileSystem
  induction events using List.reverseRecOn with
  | nil => exact wellListed
  | append_singleton events event ih =>
      rw [run_append_singleton]
      exact wellListed_step ih event

end Workspace

namespace Module

/-- Discovery succeeds with the same directories in whatever order the root is listed. They stand
in ascending order of their names, strictly and without repetition where directories list each entry
once. The entry with a name is among them if and only if it is a directory that does not lack a
configuration when it is resolved, with any cache. So no analysis of what was discovered reports a
directory without a configuration, and no entry that resolves is left out. -/
theorem discovery_agrees_with_resolution {files : FileSystem} {settings : Settings} {root : Path}
    {directories : List Path} (discovered : discover files settings root = .ok directories) :
    (∀ others, files.Relisted others → discover others settings root = .ok directories) ∧
    (∃ names, files.list root = .ok names ∧
      (∃ chosen, chosen ⊆ names ∧ chosen.map root.join = directories ∧
        chosen.Pairwise (· ≤ ·) ∧ (files.WellListed → chosen.Pairwise (· < ·))) ∧
      (files.WellListed → directories.Nodup) ∧
      ∀ name ∈ names, ∀ cache, root.join name ∈ directories ↔
        files.isDirectory (root.join name) ∧
          ∀ place, (resolve files settings cache (root.join name)).1 ≠
            .error (.noConfiguration place)) ∧
    ∀ history cache, ∀ outcome ∈ (analyzeAll files settings history cache directories).1,
      ∀ place, outcome.result ≠ .error (.noConfiguration place) := by
  rcases discover_eq_ok_iff.mp discovered with ⟨names, listed, isChosen⟩
  have chosenMem : ∀ name ∈ (inOrder names).filter fun name =>
      found files settings (root.join name), name ∈ names := by
    intro name nameMem
    exact (inOrder_perm names).subset (List.mem_of_mem_filter nameMem)
  have sorted := (sorted_inOrder names).filter fun name => found files settings (root.join name)
  have strict : files.WellListed →
      ((inOrder names).filter fun name => found files settings (root.join name)).Pairwise
        (· < ·) := by
    intro wellListed
    exact (strict_inOrder (wellListed.distinct root names listed)).filter _
  refine ⟨?_, ⟨names, listed, ⟨_, chosenMem, isChosen, sorted, strict⟩, ?_, ?_⟩, ?_⟩
  · intro others relisted
    exact discover_relisted relisted discovered
  · intro wellListed
    rw [← isChosen]
    refine List.Nodup.map_on ?_ ((strict wellListed).imp String.ne_of_lt)
    intro left leftMem right rightMem same
    exact Path.join_inj (wellListed.named root names listed left (chosenMem left leftMem))
      (wellListed.named root names listed right (chosenMem right rightMem)) same
  · intro name nameMem cache
    rw [mem_discover_iff discovered listed, found_iff cache]
    exact and_iff_right ⟨name, nameMem, rfl⟩
  · intro history cache outcome outcomeMem place refused
    rw [analyzeAll_fst_eq] at outcomeMem
    rcases List.mem_map.mp outcomeMem with ⟨directory, directoryMem, rfl⟩
    have isFound := ((mem_discover_iff discovered listed).mp directoryMem).2
    exact ((found_iff .empty).mp isFound).2 place (Except.map_eq_error_iff.mp refused)

/-- Both modules that are found are broken. The directory beside them has a directory where its
descriptor should be, and another entry is a file. -/
theorem discovery_agrees_with_resolution_broken :
    let files := (Workspace.run ⟨.empty, .empty⟩ [.write ⟨"r/b/.releaserc.json"⟩ (.text "["),
      .makeDirectory ⟨"r/d/module.toml"⟩, .write ⟨"r/c"⟩ (.text ""),
      .write ⟨"r/a/module.toml"⟩ .binary]).files
    let others : FileSystem := ⟨fun path =>
      if path = ⟨"r"⟩ then .ok (.directory ["a", "b", "c", "d"]) else files.entry path⟩
    files.WellListed ∧ files.list ⟨"r"⟩ = .ok ["b", "d", "c", "a"] ∧
      discover files .standard ⟨"r"⟩ = .ok [⟨"r/a"⟩, ⟨"r/b"⟩] ∧
      discover others .standard ⟨"r"⟩ = .ok [⟨"r/a"⟩, ⟨"r/b"⟩] ∧
      ∀ place, (resolve files .standard .empty ⟨"r/b"⟩).1 ≠ .error (.noConfiguration place) := by
  intro files others
  have wellListed : files.WellListed := Workspace.wellListed_run FileTree.wellListed_empty _
  have listed : files.list ⟨"r"⟩ = .ok ["b", "d", "c", "a"] := by
    decide
  have sorted : inOrder ["b", "d", "c", "a"] = ["a", "b", "c", "d"] :=
    inOrder_eq_of_sorted (by decide) (by decide)
  have discovered : discover files .standard ⟨"r"⟩ = .ok [⟨"r/a"⟩, ⟨"r/b"⟩] := by
    refine discover_eq_ok_iff.mpr ⟨_, listed, ?_⟩
    rw [sorted]
    decide
  have relisted : files.Relisted others := by
    intro path
    by_cases isRoot : path = ⟨"r"⟩
    · rw [isRoot, FileSystem.list_eq_ok_iff.mp listed]
      exact .directory (by decide)
    · simp only [others, if_neg isRoot]
      exact .refl _
  rcases discovery_agrees_with_resolution discovered with
    ⟨anyOrder, ⟨names, listedToo, _, _, agrees⟩, _⟩
  cases listed.symm.trans listedToo
  have resolves := (agrees "b" (by simp) .empty).mp (by decide)
  exact ⟨wellListed, listed, discovered, anyOrder others relisted, resolves.2⟩

end Module

end ReleaseAdvisor
