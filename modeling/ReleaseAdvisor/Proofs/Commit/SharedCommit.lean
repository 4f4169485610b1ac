import ReleaseAdvisor.Proofs.Commit.Narrowing

/-!
# Commits that several modules share

A commit may name the scopes of several modules. Reading its header yields the pieces of the group
as they stand between the commas, trimmed, and drops those that are blank. So a module sees the
commit if one of the pieces is its scope, and what it sees then is settled by the type, the subject
and the body: the pieces of other modules may hold colons, line feeds, opening parentheses or
exclamation marks, may come in any order, and may be repeated or padded.
-/

namespace ReleaseAdvisor

/-- A header with a group of scopes, in the parts it is written from. -/
structure WrittenHeader where
  type : String
  pieces : List String
  padding : String
  subject : String
  type_nonempty : type ≠ ""
  type_characters : ∀ character ∈ type.toList, Header.isTypeCharacter character
  pieces_separate : ∀ piece ∈ pieces, ',' ∉ piece.toList ∧ ')' ∉ piece.toList
  group_nonempty : ",".intercalate pieces ≠ ""
  padding_blank : Text.isBlankString padding
  subject_nonempty : subject ≠ ""
  subject_oneLine : '\n' ∉ subject.toList
  subject_opening : ∀ first ∈ subject.toList.head?, Text.isBlank first = false

namespace WrittenHeader

def group (written : WrittenHeader) : String :=
  ",".intercalate written.pieces

def text (written : WrittenHeader) : String :=
  written.type ++ "(" ++ written.group ++ "):" ++ written.padding ++ written.subject

def scopes (written : WrittenHeader) : List String :=
  (written.pieces.filter (!Text.isBlankString ·)).map Text.trimmed

variable (written : WrittenHeader)

theorem isSubject : Header.IsSubject written.subject.toList where
  nonempty := by
    simpa using written.subject_nonempty
  oneLine := written.subject_oneLine
  opening := by
    intro first isFirst blank
    rw [written.subject_opening first isFirst] at blank
    contradiction

theorem pieces_nonempty : written.pieces ≠ [] := by
  intro isNil
  apply written.group_nonempty
  rw [isNil, String.intercalate_nil]

theorem splitOn_group :
    List.splitOn ',' written.group.toList = written.pieces.map String.toList := by
  rw [group, String.toList_intercalate]
  apply List.splitOn_intercalate
  · intro characters characterMem
    rcases List.mem_map.mp characterMem with ⟨piece, pieceMem, rfl⟩
    exact (written.pieces_separate piece pieceMem).1
  · simpa using written.pieces_nonempty

theorem noParenthesis_group : ')' ∉ written.group.toList := by
  intro inGroup
  rw [group, String.toList_intercalate] at inGroup
  rcases Text.mem_intercalate inGroup with inComma | ⟨characters, characterMem, inPiece⟩
  · simp at inComma
  · rcases List.mem_map.mp characterMem with ⟨piece, pieceMem, rfl⟩
    exact (written.pieces_separate piece pieceMem).2 inPiece

theorem scopesOf_group : Header.scopesOf written.group.toList = written.scopes := by
  rw [Header.scopesOf_eq_map_filter, splitOn_group, List.map_map]
  simp [scopes, Function.comp_def]

/-- A header with a group is read back into its type, the scopes it names, and its subject. -/
theorem parse?_text :
    Header.parse? written.text = some ⟨written.type, written.scopes, written.subject⟩ := by
  have groupNonempty : written.group.toList ≠ [] := by
    intro isNil
    exact written.group_nonempty (String.toList_eq_nil_iff.mp isNil)
  have groupRead := Header.splitGroup?_group groupNonempty written.noParenthesis_group
    (':' :: (written.padding.toList ++ written.subject.toList))
  rw [scopesOf_group] at groupRead
  have paddingBlank : ∀ character ∈ written.padding.toList, Text.isBlank character :=
    List.all_eq_true.mp written.padding_blank
  have subjectRead := Header.subjectOf?_blanks_append paddingBlank written.isSubject
  apply Header.ofChars?_eq_some_iff.mpr
  refine ⟨_, _, ?_, ?_, written.type_characters, groupRead, subjectRead⟩
  · simp [text]
  · simpa using written.type_nonempty

/-- What a module sees of a commit under this header. -/
def seenBy (scope body : String) : ScopedCommit :=
  ⟨written.type, scope, written.subject,
    Header.narrowed written.type scope written.subject, written.text, body⟩

theorem narrow?_of_mem {scope : String} (declared : scope ∈ written.scopes) (body : String) :
    Commit.narrow? ⟨written.text, body⟩ scope = some (written.seenBy scope body) :=
  Commit.narrow?_eq_some_iff.mpr ⟨_, written.parse?_text, declared, rfl⟩

theorem narrow?_of_not_mem {scope : String} (undeclared : scope ∉ written.scopes)
    (body : String) : Commit.narrow? ⟨written.text, body⟩ scope = none := by
  simp [Commit.narrow?, parse?_text, undeclared]

end WrittenHeader

/-- A header `type(piece,…,piece):` with blanks and a subject names the trimmed pieces that are not
blank, in their order and with repetitions. A module whose scope is not among them does not see the
commit. If it is, the module sees one commit, and sees the same under every header with the same
type and subject that names its scope: the same apart from the header as it was written, and with
the same verdict of all rules. -/
theorem shared_commit_independent_of_other_scopes :
    (∀ written : WrittenHeader,
      Header.parse? written.text =
        some ⟨written.type,
          (written.pieces.filter (!Text.isBlankString ·)).map Text.trimmed, written.subject⟩) ∧
    (∀ (written : WrittenHeader) (body scope : String), scope ∉ written.scopes →
      Commit.narrow? ⟨written.text, body⟩ scope = none) ∧
    (∀ (written other : WrittenHeader) (body scope : String),
      written.type = other.type → written.subject = other.subject →
      scope ∈ written.scopes → scope ∈ other.scopes →
        ∃ own, Commit.narrow? ⟨written.text, body⟩ scope = some own ∧
          Commit.narrow? ⟨other.text, body⟩ scope =
            some { own with writtenHeader := other.text } ∧
          ∀ rules : RuleSet,
            rules.classify { own with writtenHeader := other.text } = rules.classify own) := by
  refine ⟨fun written => written.parse?_text, ?_, ?_⟩
  · intro written body scope undeclared
    exact written.narrow?_of_not_mem undeclared body
  · intro written other body scope sameType sameSubject declared declaredToo
    refine ⟨_, written.narrow?_of_mem declared body, ?_, fun rules => rfl⟩
    rw [other.narrow?_of_mem declaredToo, WrittenHeader.seenBy, WrittenHeader.seenBy, sameType,
      sameSubject]

/-- Among the pieces of another module are a colon, a parenthesis, an exclamation mark and a line
feed. -/
theorem shared_commit_independent_of_other_scopes_noisy :
    let written : WrittenHeader := {
      type := "fix", pieces := ["core", " a:b(!\n", "", "core\t"], padding := " \n"
      subject := "x: (y)"
      type_nonempty := by decide, type_characters := List.all_eq_true.mp (by decide)
      pieces_separate := by decide, group_nonempty := by decide, padding_blank := by decide
      subject_nonempty := by decide, subject_oneLine := by decide
      subject_opening := by simp [Text.isBlank] }
    let other : WrittenHeader := {
      written with
      pieces := ["\u00a0core"], padding := "", pieces_separate := by decide
      group_nonempty := by decide, padding_blank := by decide }
    ("a" ∉ written.scopes ∧ Commit.narrow? ⟨written.text, "note"⟩ "a" = none) ∧
      ("core" ∈ written.scopes ∧ "core" ∈ other.scopes) ∧
        ∃ own, Commit.narrow? ⟨written.text, "note"⟩ "core" = some own ∧
          Commit.narrow? ⟨other.text, "note"⟩ "core" =
            some { own with writtenHeader := other.text } ∧
          ∀ rules : RuleSet,
            rules.classify { own with writtenHeader := other.text } = rules.classify own := by
  intro written other
  have independent := shared_commit_independent_of_other_scopes.2
  have undeclared : "a" ∉ written.scopes := by
    decide
  have declared : "core" ∈ written.scopes := by
    decide
  have declaredToo : "core" ∈ other.scopes := by
    decide
  refine ⟨⟨undeclared, independent.1 written "note" "a" undeclared⟩, ⟨declared, declaredToo⟩, ?_⟩
  exact independent.2 written other "note" "core" rfl rfl declared declaredToo

end ReleaseAdvisor
