import ReleaseAdvisor.Files.Tree
import ReleaseAdvisor.Proofs.Text.Trimming

/-!
# Paths that name the same place

Sameness of paths is equality of their components, so it is an equivalence. A file system is
coherent when it shows the same text under all spellings of a path under which it shows a file.
Spellings may still differ in whether there is a file at all: `a/` is no file where `a` is one,
and a spelling may be too long to be looked up.

The walk through a file tree skips what components leave out, so file trees are coherent.
-/

namespace ReleaseAdvisor

namespace Path

theorem same_iff {left right : Path} : left.same right ↔ left.components = right.components := by
  simp [same]

theorem same_comm (left right : Path) : left.same right = right.same left := by
  rw [Bool.eq_iff_iff, same_iff, same_iff, eq_comm]

theorem same_congr {left right : Path} (same : left.same right) (other : Path) :
    left.same other = right.same other := by
  rw [Bool.eq_iff_iff, same_iff, same_iff, same_iff.mp same]

end Path

/-- The files that stand under different spellings of a path have the same text. -/
def FileSystem.Coherent (files : FileSystem) : Prop :=
  ∀ left right : Path, left.same right → files.isFile left → files.isFile right →
    files.read left = files.read right

namespace FileNode

def isStep (piece : String) : Bool :=
  !piece.isEmpty && piece != "."

theorem isStep_iff (piece : String) : isStep piece ↔ ¬(piece = "" ∨ piece = ".") := by
  simp [isStep]

theorem walk_directory (above : List FileNode) (entries : List (String × FileNode))
    (piece : String) (rest : List String) :
    walk above (.directory entries) (piece :: rest) =
      if piece = "" ∨ piece = "." then walk above (.directory entries) rest
      else if piece = ".." then
        match above with
        | [] => walk [] outside rest
        | parent :: higher => walk higher parent rest
      else if piece.utf8ByteSize > maxNameBytes then .error .nameTooLong
      else
        match entries.lookup piece with
        | none => .error .notFound
        | some child => walk (.directory entries :: above) child rest := by
  rfl

/-- A walk that arrives arrives at the same place without the pieces it skips. -/
theorem walk_filter_isStep {above : List FileNode} {here found : FileNode} {pieces : List String}
    (arrives : walk above here pieces = .ok found) :
    walk above here (pieces.filter isStep) = .ok found := by
  induction pieces generalizing above here with
  | nil => exact arrives
  | cons piece rest ih =>
      cases here with
      | file content => simp [walk] at arrives
      | directory entries =>
          rw [walk_directory] at arrives
          by_cases skipped : piece = "" ∨ piece = "."
          · rw [if_pos skipped] at arrives
            rw [List.filter_cons_of_neg fun step => (isStep_iff piece).mp step skipped]
            exact ih arrives
          · rw [if_neg skipped] at arrives
            rw [List.filter_cons_of_pos ((isStep_iff piece).mpr skipped), walk_directory,
              if_neg skipped]
            by_cases up : piece = ".."
            · rw [if_pos up] at arrives ⊢
              cases above with
              | nil => exact ih arrives
              | cons parent higher => exact ih arrives
            · rw [if_neg up] at arrives ⊢
              by_cases long : piece.utf8ByteSize > maxNameBytes
              · rw [if_pos long] at arrives
                contradiction
              · rw [if_neg long] at arrives ⊢
                cases child : entries.lookup piece with
                | none => simp [child] at arrives
                | some node =>
                    rw [child] at arrives
                    exact ih arrives

end FileNode

namespace Path

theorem piece_ne_slash (path : Path) {piece : String} (mem : piece ∈ path.pieces) :
    piece ≠ "/" := by
  rcases List.mem_map.mp mem with ⟨characters, charactersMem, rfl⟩
  rintro isSlash
  apply (Text.piece_of_splitOn charactersMem).1
  have asList : characters = (String.ofList characters).toList := String.toList_ofList.symm
  rw [asList, isSlash]
  decide

/-- A path is empty, or starts with a slash, which ends an empty first piece, or starts with a
piece that is not empty. -/
theorem pieces_cases (path : Path) :
    (path.pieces = [""] ∧ path.isAbsolute = false) ∨
    (∃ next rest, path.pieces = "" :: next :: rest ∧ path.isAbsolute = true) ∨
    (∃ first rest, path.pieces = first :: rest ∧ first ≠ "" ∧ path.isAbsolute = false) := by
  unfold pieces isAbsolute
  cases path.text.toList with
  | nil => simp
  | cons first more =>
      rw [List.splitOn_cons_eq_if_modifyHead]
      cases following : List.splitOn '/' more with
      | nil => simp at following
      | cons next rest =>
          by_cases slash : first = '/'
          · right
            left
            exact ⟨String.ofList next, rest.map String.ofList, by simp [slash]⟩
          · right
            right
            refine ⟨String.ofList (first :: next), rest.map String.ofList, ?_, ?_, ?_⟩
            · simp [slash]
            · simp
            · simp [slash]

theorem isAbsolute_iff (path : Path) : path.isAbsolute ↔ path.components.head? = some "/" := by
  rcases pieces_cases path with ⟨split, absolute⟩ | ⟨next, rest, split, absolute⟩ |
    ⟨first, rest, split, nonempty, absolute⟩
  · simp [components, split, absolute]
  · simp [components, split, absolute]
  · have notSlash : first ≠ "/" := piece_ne_slash path (by simp [split])
    simp [components, split, absolute, nonempty, notSlash]

theorem filter_isStep_pieces (path : Path) :
    path.pieces.filter FileNode.isStep =
      path.components.filter fun component => FileNode.isStep component && component != "/" := by
  have named : ∀ pieces ⊆ path.pieces,
      (pieces.filter FileNode.isStep).filter
          (fun component => FileNode.isStep component && component != "/") =
        pieces.filter FileNode.isStep := by
    intro pieces inside
    rw [List.filter_filter]
    apply List.filter_congr
    intro piece mem
    simp [piece_ne_slash path (inside mem)]
  rcases pieces_cases path with ⟨split, _⟩ | ⟨next, rest, split, _⟩ |
    ⟨first, rest, split, nonempty, _⟩
  · have components : path.components = [] := by
      simp [components, split]
    rw [components, split]
    decide
  · have components : path.components = "/" :: (next :: rest).filter FileNode.isStep := by
      simp only [components, split]
      rfl
    rw [components, List.filter_cons_of_neg (by simp), named _ (by simp [split]), split]
    exact List.filter_cons_of_neg (by decide)
  · have components : path.components = first :: rest.filter FileNode.isStep := by
      simp only [components, split]
      split
      · contradiction
      · rename_i single
        exact absurd (List.cons.inj single).1 nonempty
      · rename_i parts
        rcases List.cons.inj parts with ⟨rfl, rfl⟩
        rw [if_neg (by simpa using nonempty)]
        rfl
    have notSlash : first ≠ "/" := piece_ne_slash path (by simp [split])
    rw [components, List.filter_cons, named _ (by simp [split]), split, List.filter_cons]
    simp [notSlash]

theorem isAbsolute_eq_of_same {left right : Path} (same : left.same right) :
    left.isAbsolute = right.isAbsolute := by
  rw [Bool.eq_iff_iff, isAbsolute_iff, isAbsolute_iff, same_iff.mp same]

theorem filter_isStep_of_same {left right : Path} (same : left.same right) :
    left.pieces.filter FileNode.isStep = right.pieces.filter FileNode.isStep := by
  rw [filter_isStep_pieces, filter_isStep_pieces, same_iff.mp same]

end Path

namespace FileTree

/-- Where something stands at a path, the walk along its steps arrives there. -/
theorem walk_steps_of_entry {tree : FileTree} {path : Path} {entry : FileEntry}
    (stands : tree.toFileSystem.entry path = .ok entry) :
    (FileNode.walk []
        (if path.isAbsolute then FileNode.outside else .directory tree.entries)
        (path.pieces.filter FileNode.isStep)).map (·.toEntry) = .ok entry := by
  simp only [toFileSystem] at stands
  split at stands
  · contradiction
  · split at stands
    · contradiction
    · split at stands
      · contradiction
      · cases walked : FileNode.walk []
            (if path.isAbsolute then FileNode.outside else .directory tree.entries) path.pieces with
        | error error =>
            rw [walked] at stands
            contradiction
        | ok found =>
            rw [walked] at stands
            rw [FileNode.walk_filter_isStep walked]
            exact stands

theorem entry_eq_of_same {tree : FileTree} {left right : Path} {leftEntry rightEntry : FileEntry}
    (same : left.same right) (leftStands : tree.toFileSystem.entry left = .ok leftEntry)
    (rightStands : tree.toFileSystem.entry right = .ok rightEntry) : leftEntry = rightEntry := by
  have leftWalk := walk_steps_of_entry leftStands
  have rightWalk := walk_steps_of_entry rightStands
  rw [Path.isAbsolute_eq_of_same same, Path.filter_isStep_of_same same, rightWalk] at leftWalk
  simpa using leftWalk.symm

end FileTree

theorem FileSystem.exists_entry_of_isFile {files : FileSystem} {path : Path}
    (isFile : files.isFile path) : ∃ content, files.entry path = .ok (.file content) := by
  unfold FileSystem.isFile at isFile
  split at isFile
  · rename_i content stands
    exact ⟨content, stands⟩
  · contradiction

/-- Every file tree is coherent. -/
theorem FileTree.coherent_toFileSystem (tree : FileTree) : tree.toFileSystem.Coherent := by
  intro left right same leftFile rightFile
  rcases FileSystem.exists_entry_of_isFile leftFile with ⟨leftContent, leftStands⟩
  rcases FileSystem.exists_entry_of_isFile rightFile with ⟨rightContent, rightStands⟩
  have entries := entry_eq_of_same same leftStands rightStands
  rw [FileSystem.read, FileSystem.read, leftStands, rightStands, entries]

end ReleaseAdvisor
