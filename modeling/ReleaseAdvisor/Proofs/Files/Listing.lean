import ReleaseAdvisor.Proofs.Files.SamePlace
import ReleaseAdvisor.Proofs.Result

/-!
# What directories list

A directory lists each of its entries once, by a name that is one step from the directory to the
entry. A file tree that starts empty stays like this whatever is written, created or removed: an
entry that is set takes the place of the one with its name, and the names are steps of a path that
stays in the tree.

The order of a listing means nothing. Two file systems that differ in such orders only have the same
files and the same directories.
-/

namespace ReleaseAdvisor

/-- A name that leads from a directory to an entry of it. -/
structure IsEntryName (name : String) : Prop where
  nonempty : name ≠ ""
  notHere : name ≠ "."
  notAbove : name ≠ ".."
  noSlash : '/' ∉ name.toList

/-- Every directory lists its entries by proper names and each of them once. -/
structure FileSystem.WellListed (files : FileSystem) : Prop where
  distinct : ∀ path names, files.list path = .ok names → names.Nodup
  named : ∀ path names, files.list path = .ok names → ∀ name ∈ names, IsEntryName name

/-! ## Trees -/

/-- A node in which every directory, itself included, has proper names for its entries, each of
them once. -/
inductive FileNode.WellListed : FileNode → Prop where
  | file {content : FileContent} : WellListed (.file content)
  | directory {entries : List (String × FileNode)} :
      (entries.map (·.1)).Nodup → (∀ entry ∈ entries, IsEntryName entry.1) →
      (∀ entry ∈ entries, WellListed entry.2) → WellListed (.directory entries)

namespace FileNode

theorem wellListed_outside : outside.WellListed :=
  .directory List.nodup_nil (List.forall_mem_nil _) (List.forall_mem_nil _)

theorem WellListed.of_lookup {entries : List (String × FileNode)} {name : String}
    {child : FileNode} (wellListed : ∀ entry ∈ entries, WellListed entry.2)
    (found : entries.lookup name = some child) : child.WellListed := by
  rcases List.lookup_eq_some_iff.mp found with ⟨before, after, rfl, _⟩
  exact wellListed (name, child) (by simp)

/-- A walk only arrives at nodes of the tree, or outside. -/
theorem WellListed.walk {above : List FileNode} {here found : FileNode} {pieces : List String}
    (higher : ∀ node ∈ above, node.WellListed) (wellListed : here.WellListed)
    (arrives : FileNode.walk above here pieces = .ok found) : found.WellListed := by
  induction pieces generalizing above here with
  | nil =>
      cases arrives
      exact wellListed
  | cons piece rest ih =>
      cases wellListed with
      | file => simp [FileNode.walk] at arrives
      | directory distinct named inside =>
          have here := WellListed.directory distinct named inside
          rw [walk_directory] at arrives
          split at arrives
          · exact ih higher here arrives
          · split at arrives
            · cases above with
              | nil => exact ih (List.forall_mem_nil _) wellListed_outside arrives
              | cons parent others =>
                  rcases List.forall_mem_cons.mp higher with ⟨parentListed, othersListed⟩
                  exact ih othersListed parentListed arrives
            · split at arrives
              · contradiction
              · split at arrives
                · contradiction
                · rename_i child found
                  exact ih (List.forall_mem_cons.mpr ⟨here, higher⟩) (.of_lookup inside found)
                    arrives

theorem mem_setEntry {name : String} {child? : Option FileNode} {entries : List (String × FileNode)}
    {entry : String × FileNode} :
    entry ∈ setEntry name child? entries ↔
      entry ∈ entries ∧ entry.1 ≠ name ∨ ∃ child, child? = some child ∧ (name, child) = entry := by
  simp [setEntry]

theorem nodup_setEntry {entries : List (String × FileNode)} (distinct : (entries.map (·.1)).Nodup)
    (name : String) (child? : Option FileNode) :
    ((setEntry name child? entries).map (·.1)).Nodup := by
  rw [setEntry, List.map_append, List.nodup_append]
  refine ⟨?_, ?_, ?_⟩
  · exact distinct.sublist (List.filter_sublist.map _)
  · cases child? <;> simp
  · intro kept keptMem added addedMem
    rcases List.mem_map.mp keptMem with ⟨entry, entryMem, rfl⟩
    have isName : added = name := by
      cases child? <;> simp_all
    have isOther := (List.mem_filter.mp entryMem).2
    rw [isName]
    simpa using isOther

theorem WellListed.setEntry {entries : List (String × FileNode)}
    (wellListed : (FileNode.directory entries).WellListed) {name : String}
    (isName : IsEntryName name) {child? : Option FileNode}
    (childListed : ∀ child ∈ child?, child.WellListed) :
    (FileNode.directory (FileNode.setEntry name child? entries)).WellListed := by
  cases wellListed with
  | directory distinct named inside =>
      refine .directory (nodup_setEntry distinct name child?) ?_ ?_
      · intro entry entryMem
        rcases mem_setEntry.mp entryMem with ⟨oldMem, _⟩ | ⟨child, _, rfl⟩
        · exact named entry oldMem
        · exact isName
      · intro entry entryMem
        rcases mem_setEntry.mp entryMem with ⟨oldMem, _⟩ | ⟨child, isChild, rfl⟩
        · exact inside entry oldMem
        · exact childListed child isChild

theorem WellListed.change {update : Option FileNode → Option FileNode}
    (updated : ∀ here?, (∀ node ∈ here?, WellListed node) → ∀ node ∈ update here?, node.WellListed)
    {names : List String} (named : ∀ name ∈ names, IsEntryName name) {here? : Option FileNode}
    (wellListed : ∀ node ∈ here?, node.WellListed) :
    ∀ node ∈ FileNode.change update names here?, node.WellListed := by
  fun_induction FileNode.change update names here? with
  | case1 here? => exact updated here? wellListed
  | case2 name rest entries ih =>
      rcases List.forall_mem_cons.mp named with ⟨isName, restNamed⟩
      have here := wellListed (.directory entries) rfl
      have childListed : ∀ child ∈ entries.lookup name, child.WellListed := by
        intro child found
        cases here with
        | directory _ _ inside => exact .of_lookup inside found
      rintro node ⟨⟩
      exact here.setEntry isName (ih restNamed childListed)
  | case3 name rest ih =>
      rcases List.forall_mem_cons.mp named with ⟨isName, restNamed⟩
      intro node isNode
      rcases Option.map_eq_some_iff.mp isNode with ⟨child, isChild, rfl⟩
      have childListed := ih restNamed (by simp) child isChild
      exact .directory (by simp) (by simpa using isName) (by simpa using childListed)
  | case4 name rest content =>
      rintro node ⟨⟩
      exact .file

end FileNode

namespace FileTree

def WellListed (tree : FileTree) : Prop :=
  (FileNode.directory tree.entries).WellListed

theorem wellListed_empty : empty.WellListed :=
  FileNode.wellListed_outside

/-- A place of a walk that is outside of the tree, or that proper names lead to. -/
def ProperPlace (place? : Option (List String)) : Prop :=
  ∀ names ∈ place?, ∀ name ∈ names, IsEntryName name

theorem WellListed.changeAt {tree : FileTree} (wellListed : tree.WellListed)
    {place? : Option (List String)} (proper : ProperPlace place?)
    {update : Option FileNode → Option FileNode}
    (updated : ∀ here?, (∀ node ∈ here?, FileNode.WellListed node) →
      ∀ node ∈ update here?, node.WellListed) :
    (tree.changeAt place? update).WellListed := by
  cases place? with
  | none => exact wellListed
  | some names =>
      simp only [FileTree.changeAt]
      split
      · rename_i entries changed
        refine FileNode.WellListed.change updated (proper names rfl) ?_ _ changed
        rintro node ⟨⟩
        exact wellListed
      · exact wellListed

theorem properPlace_start? (path : Path) : ProperPlace (start? path) := by
  intro names isStart
  rw [start?] at isStart
  split at isStart
  · contradiction
  · cases isStart
    exact List.forall_mem_nil _

theorem ProperPlace.next? {place? : Option (List String)} (proper : ProperPlace place?)
    {piece : String} (noSlash : '/' ∉ piece.toList) : ProperPlace (next? place? piece) := by
  intro names isNext
  rcases Option.bind_eq_some_iff.mp isNext with ⟨before, isBefore, stepped⟩
  have named := proper before isBefore
  split at stepped
  · cases stepped
    exact named
  · rename_i notSkipped
    split at stepped
    · split at stepped
      · contradiction
      · cases stepped
        exact fun name nameMem => named name (List.dropLast_subset _ nameMem)
    · rename_i notUp
      cases stepped
      have isName : IsEntryName piece :=
        ⟨fun empty => notSkipped (.inl empty), fun dot => notSkipped (.inr dot), notUp, noSlash⟩
      simpa [or_imp, forall_and, isName] using named

theorem ProperPlace.foldl_next? {pieces : List String}
    (noSlash : ∀ piece ∈ pieces, '/' ∉ piece.toList) {place? : Option (List String)}
    (proper : ProperPlace place?) : ProperPlace (pieces.foldl FileTree.next? place?) := by
  induction pieces generalizing place? with
  | nil => exact proper
  | cons piece rest ih =>
      rcases List.forall_mem_cons.mp noSlash with ⟨pieceClean, restClean⟩
      exact ih restClean (proper.next? pieceClean)

theorem WellListed.foldl_enter {pieces : List String}
    (noSlash : ∀ piece ∈ pieces, '/' ∉ piece.toList) {tree : FileTree}
    {place? : Option (List String)} (wellListed : tree.WellListed) (proper : ProperPlace place?) :
    (pieces.foldl enter (tree, place?)).1.WellListed ∧
      ProperPlace (pieces.foldl enter (tree, place?)).2 := by
  induction pieces generalizing tree place? with
  | nil => exact ⟨wellListed, proper⟩
  | cons piece rest ih =>
      rcases List.forall_mem_cons.mp noSlash with ⟨pieceClean, restClean⟩
      have reached := proper.next? pieceClean
      refine ih restClean (wellListed.changeAt reached ?_) reached
      rintro (_ | here) hereListed node ⟨⟩
      · exact FileNode.wellListed_outside
      · exact hereListed here rfl

theorem noSlash_of_mem_pieces {path : Path} {piece : String} (mem : piece ∈ path.pieces) :
    '/' ∉ piece.toList := by
  rcases List.mem_map.mp mem with ⟨characters, charactersMem, rfl⟩
  rw [String.toList_ofList]
  exact (Text.piece_of_splitOn charactersMem).1

theorem WellListed.makeDirectory {tree : FileTree} (wellListed : tree.WellListed) (path : Path) :
    (tree.makeDirectory path).WellListed :=
  (foldl_enter (fun _ => noSlash_of_mem_pieces) wellListed (properPlace_start? path)).1

theorem WellListed.write {tree : FileTree} (wellListed : tree.WellListed) (path : Path)
    (content : FileContent) : (tree.write path content).WellListed := by
  have cleanSteps : ∀ piece ∈ path.pieces.dropLast, '/' ∉ piece.toList :=
    fun _ mem => noSlash_of_mem_pieces (List.dropLast_subset _ mem)
  have cleanLast : '/' ∉ (path.pieces.getLast?.getD "").toList := by
    cases last : path.pieces.getLast? with
    | none => simp
    | some piece => exact noSlash_of_mem_pieces (List.mem_of_getLast? last)
  rcases foldl_enter cleanSteps wellListed (properPlace_start? path) with ⟨entered, proper⟩
  refine entered.changeAt (proper.next? cleanLast) ?_
  rintro _ _ node ⟨⟩
  exact .file

theorem WellListed.remove {tree : FileTree} (wellListed : tree.WellListed) (path : Path) :
    (tree.remove path).WellListed := by
  rw [FileTree.remove]
  split
  · have noSlash : ∀ piece ∈ path.pieces, '/' ∉ piece.toList := fun _ => noSlash_of_mem_pieces
    exact wellListed.changeAt ((properPlace_start? path).foldl_next? noSlash) (by simp)
  · exact wellListed

end FileTree

namespace FileSystem

theorem list_eq_ok_iff {files : FileSystem} {path : Path} {names : List String} :
    files.list path = .ok names ↔ files.entry path = .ok (.directory names) := by
  unfold list
  split
  · rename_i found stands
    simp [stands]
  · rename_i content stands
    simp [stands]
  · rename_i error stands
    simp [stands]

end FileSystem

theorem FileTree.WellListed.toFileSystem {tree : FileTree} (wellListed : tree.WellListed) :
    tree.toFileSystem.WellListed := by
  have proper : ∀ path names, tree.toFileSystem.list path = .ok names →
      names.Nodup ∧ ∀ name ∈ names, IsEntryName name := by
    intro path names listed
    have arrives := walk_steps_of_entry (FileSystem.list_eq_ok_iff.mp listed)
    rcases Except.map_eq_ok_iff.mp arrives with ⟨found, walked, shown⟩
    have startListed : (if path.isAbsolute then FileNode.outside
        else .directory tree.entries).WellListed := by
      split
      · exact FileNode.wellListed_outside
      · exact wellListed
    cases FileNode.WellListed.walk (List.forall_mem_nil _) startListed walked with
    | file => contradiction
    | directory distinct named _ =>
        cases shown
        exact ⟨distinct, by simpa using named⟩
  exact ⟨fun path names listed => (proper path names listed).1,
    fun path names listed => (proper path names listed).2⟩

/-! ## The order of a listing -/

/-- What two file systems show at a path, up to the order in which a directory lists its entries. -/
inductive FileSystem.ShownAlike :
    Except FileError FileEntry → Except FileError FileEntry → Prop where
  | error {error : FileError} : ShownAlike (.error error) (.error error)
  | file {content : FileContent} : ShownAlike (.ok (.file content)) (.ok (.file content))
  | directory {names others : List String} :
      names.Perm others → ShownAlike (.ok (.directory names)) (.ok (.directory others))

theorem FileSystem.ShownAlike.refl (shown : Except FileError FileEntry) : ShownAlike shown shown := by
  rcases shown with error | content | names
  · exact .error
  · exact .file
  · exact .directory (List.Perm.refl names)

/-- Two file systems that differ at most in the order in which directories list their entries. -/
def FileSystem.Relisted (files others : FileSystem) : Prop :=
  ∀ path, ShownAlike (files.entry path) (others.entry path)

namespace FileSystem.Relisted

variable {files others : FileSystem}

theorem isFile_eq (relisted : files.Relisted others) (path : Path) :
    others.isFile path = files.isFile path := by
  have alike := relisted path
  unfold isFile
  generalize files.entry path = entry, others.entry path = other at alike ⊢
  cases alike <;> rfl

theorem isDirectory_eq (relisted : files.Relisted others) (path : Path) :
    others.isDirectory path = files.isDirectory path := by
  have alike := relisted path
  unfold isDirectory
  generalize files.entry path = entry, others.entry path = other at alike ⊢
  cases alike <;> rfl

theorem exists_list (relisted : files.Relisted others) {path : Path} {names : List String}
    (listed : files.list path = .ok names) :
    ∃ otherNames, others.list path = .ok otherNames ∧ names.Perm otherNames := by
  have alike := relisted path
  rw [list_eq_ok_iff.mp listed] at alike
  cases shown : others.entry path with
  | error error =>
      rw [shown] at alike
      cases alike
  | ok entry =>
      rw [shown] at alike
      cases alike with
      | directory perm => exact ⟨_, list_eq_ok_iff.mpr shown, perm⟩

end FileSystem.Relisted

end ReleaseAdvisor
