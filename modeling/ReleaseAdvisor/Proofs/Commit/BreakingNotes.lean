import Mathlib.Data.List.DropRight
import ReleaseAdvisor.Commit.BreakingNote
import ReleaseAdvisor.Proofs.Text.Trimming

/-!
# Where a breaking-change note stands

A body carries a note exactly if one of the keywords stands with a colon at the start of a line,
blanks aside. Which lines a text has is delicate at their ends: a carriage return there may belong
to the ending or to the line, and text after the last line feed is a line only if there is any. A
note never sees the difference. It is found at the front of a line, it does not end in a carriage
return, and it is never empty, so the pieces between line feeds will do for lines.

The blanks in front of a keyword may include line feeds, since what stands before the last of them
is only more text above the line.
-/

namespace ReleaseAdvisor

namespace Text

theorem dropFinalReturn_cases (line : List Char) :
    dropFinalReturn line = line ∨ line = dropFinalReturn line ++ ['\r'] := by
  unfold dropFinalReturn
  split
  · rename_i rest reversed
    right
    rw [← List.reverse_reverse line, reversed, List.reverse_cons]
  · exact Or.inl rfl

/-- A test that does not mind a carriage return at the end of a line and refuses the empty line
sees the lines of a text as the pieces between its line feeds. -/
theorem any_lines {test : List Char → Bool}
    (stable : ∀ line, test (line ++ ['\r']) = test line) (refused : test [] = false)
    (text : List Char) : (lines text).any test = (List.splitOn '\n' text).any test := by
  have dropped : ∀ line, test (dropFinalReturn line) = test line := by
    intro line
    rcases dropFinalReturn_cases line with same | split
    · rw [same]
    · rw [← stable, ← split]
  rcases List.eq_nil_or_concat (List.splitOn '\n' text) with none | ⟨ended, last, pieces⟩
  · exact absurd none (List.splitOn_ne_nil '\n' text)
  · have lastKept : (if last = [] then [] else [last]).any test = test last := by
      cases last with
      | nil => simp [refused]
      | cons first more => simp
    simp [lines, pieces, lastKept, List.any_map, Function.comp_def, dropped]

theorem trimStart_return (line : List Char) :
    trimStart (line ++ ['\r']) = trimStart line ∨
      trimStart (line ++ ['\r']) = trimStart line ++ ['\r'] := by
  unfold trimStart
  rw [List.dropWhile_append]
  split
  · rename_i allBlank
    left
    rw [List.isEmpty_iff.mp allBlank]
    rfl
  · exact Or.inr rfl

end Text

namespace BreakingNote

/-- A carriage return at the end of a line is part of no note. -/
theorem opensWith_return (keyword line : List Char) :
    opensWith keyword (line ++ ['\r']) = opensWith keyword line := by
  unfold opensWith
  rcases Text.trimStart_return line with same | longer
  · rw [same]
  · rw [longer, Bool.eq_iff_iff, List.isPrefixOf_iff_prefix, List.isPrefixOf_iff_prefix,
      List.prefix_concat_iff]
    constructor
    · rintro (whole | inFront)
      · have lastChar := congrArg List.getLast? whole
        simp at lastChar
      · exact inFront
    · exact Or.inr

theorem opensWith_nil (keyword : List Char) : opensWith keyword [] = false := by
  cases keyword <;> rfl

/-- A note is looked for in the pieces between line feeds. -/
theorem isIn_eq_any_pieces (body : String) (keywords : List String) :
    isIn body keywords = (List.splitOn '\n' body.toList).any fun line =>
      keywords.any fun keyword => opensWith keyword.toList line := by
  apply Text.any_lines
  · intro line
    simp only [opensWith_return]
  · simp [opensWith_nil]

/-- The lines of two texts that a line feed joins are the lines of both. -/
theorem isIn_append_lineFeed (first second : String) (keywords : List String) :
    isIn (first ++ "\n" ++ second) keywords = (isIn first keywords || isIn second keywords) := by
  have joined : (first ++ "\n" ++ second).toList = first.toList ++ '\n' :: second.toList := by
    simp
  simp only [isIn_eq_any_pieces, joined, List.splitOn_append_cons_self, List.any_append]

/-! ## Keywords at line starts -/

/-- A keyword that can stand at the start of a line, behind the blanks there. -/
structure CanOpen (keyword : String) : Prop where
  oneLine : '\n' ∉ keyword.toList
  start : ∀ first ∈ keyword.toList.head?, Text.isBlank first = false

/-- Whether a keyword and a colon stand in a body at the start of a line, blanks aside. -/
def StandsIn (keyword body : String) : Prop :=
  ∃ before padding after : String, body = before ++ padding ++ keyword ++ ":" ++ after ∧
    (∀ last ∈ before.toList.getLast?, last = '\n') ∧ Text.isBlankString padding

theorem trimStart_opening {padding keyword : List Char}
    (blank : ∀ character ∈ padding, Text.isBlank character)
    (start : ∀ first ∈ keyword.head?, Text.isBlank first = false) (after : List Char) :
    Text.trimStart (padding ++ (keyword ++ ':' :: after)) = keyword ++ ':' :: after := by
  apply Text.dropWhile_append_of_stops blank
  cases keyword with
  | nil => simp [show Text.isBlank ':' = false by decide]
  | cons first more => simpa using start

theorem opensWith_iff {keyword line : List Char} :
    opensWith keyword line ↔
      (∀ first ∈ keyword.head?, Text.isBlank first = false) ∧
        ∃ padding after, line = padding ++ (keyword ++ ':' :: after) ∧
          ∀ character ∈ padding, Text.isBlank character := by
  rw [opensWith, List.isPrefixOf_iff_prefix]
  constructor
  · rintro ⟨after, trimmed⟩
    rw [List.append_assoc, List.singleton_append] at trimmed
    refine ⟨?_, line.takeWhile Text.isBlank, after, ?_, fun _ => List.mem_takeWhile_imp⟩
    · intro first isFirst
      have atStart : first ∈ (line.dropWhile Text.isBlank).head? := by
        rw [← Text.trimStart, ← trimmed]
        exact List.mem_head?_append_of_mem_head? isFirst
      exact Text.stops_of_dropWhile atStart
    · rw [trimmed]
      exact List.takeWhile_append_dropWhile.symm
  · rintro ⟨start, padding, after, rfl, blank⟩
    rw [trimStart_opening blank start]
    exact ⟨after, by simp⟩

theorem exists_piece_iff {keyword body : String} :
    (∃ line ∈ List.splitOn '\n' body.toList, opensWith keyword.toList line) ↔
      CanOpen keyword ∧ StandsIn keyword body := by
  constructor
  · rintro ⟨line, lineMem, opened⟩
    rcases Text.mem_splitOn_iff.mp lineMem with ⟨oneLine, before, rest, bodyEq, starts, _⟩
    rcases opensWith_iff.mp opened with ⟨start, padding, after, rfl, blank⟩
    refine ⟨⟨?_, start⟩, String.ofList before, String.ofList padding, String.ofList (after ++ rest),
      ?_, ?_, ?_⟩
    · simp_all
    · rw [← String.toList_inj, bodyEq]
      simp
    · simpa using starts
    · simpa [Text.isBlankString] using blank
  · rintro ⟨⟨oneLine, start⟩, before, padding, after, rfl, starts, blank⟩
    -- The line of the keyword starts behind the last line feed of the blanks in front of it.
    rcases Text.exists_lastPiece '\n' padding.toList with ⟨above, indent, paddingEq, indentLine, ends⟩
    rcases Text.exists_firstPiece '\n' after.toList with ⟨same, below, afterEq, sameLine, stops⟩
    refine ⟨indent ++ (keyword.toList ++ ':' :: same), ?_, ?_⟩
    · apply Text.mem_splitOn_iff.mpr
      refine ⟨by simp [indentLine, oneLine, sameLine], before.toList ++ above, below, ?_, ?_, stops⟩
      · simp [paddingEq, afterEq]
      · intro last isLast
        rw [List.getLast?_append, Option.mem_def, Option.or_eq_some_iff] at isLast
        rcases isLast with inAbove | ⟨_, inBefore⟩
        · exact ends last inAbove
        · exact starts last inBefore
    · apply opensWith_iff.mpr
      refine ⟨start, indent, same, rfl, ?_⟩
      intro character inIndent
      rw [Text.isBlankString, paddingEq, List.all_append, Bool.and_eq_true] at blank
      exact List.all_eq_true.mp blank.2 character inIndent

theorem isIn_iff (body : String) (keywords : List String) :
    isIn body keywords ↔ ∃ keyword ∈ keywords, CanOpen keyword ∧ StandsIn keyword body := by
  rw [isIn_eq_any_pieces, List.any_eq_true]
  simp only [List.any_eq_true, ← exists_piece_iff]
  constructor
  · rintro ⟨line, lineMem, keyword, keywordMem, opened⟩
    exact ⟨keyword, keywordMem, line, lineMem, opened⟩
  · rintro ⟨keyword, keywordMem, line, lineMem, opened⟩
    exact ⟨line, lineMem, keyword, keywordMem, opened⟩

/-- A body carries a note exactly if one of the keywords can stand at the start of a line and does,
with a colon behind it. So neither the order nor the repetition of keywords matters, more keywords
find no fewer notes, and a line feed between two texts neither makes nor breaks a note. -/
theorem notes_stand_at_line_starts :
    (∀ body keywords,
      isIn body keywords ↔ ∃ keyword ∈ keywords, CanOpen keyword ∧ StandsIn keyword body) ∧
    (∀ body keywords others, (∀ keyword, keyword ∈ keywords ↔ keyword ∈ others) →
      isIn body keywords = isIn body others) ∧
    (∀ body keywords others, keywords ⊆ others → isIn body keywords → isIn body others) ∧
    (∀ first second keywords,
      isIn (first ++ "\n" ++ second) keywords = (isIn first keywords || isIn second keywords)) := by
  refine ⟨isIn_iff, ?_, ?_, isIn_append_lineFeed⟩
  · intro body keywords others sameKeywords
    rw [Bool.eq_iff_iff, isIn_iff, isIn_iff]
    simp only [sameKeywords]
  · intro body keywords others more found
    rcases (isIn_iff body keywords).mp found with ⟨keyword, keywordMem, stands⟩
    exact (isIn_iff body others).mpr ⟨keyword, more keywordMem, stands⟩

/-- A keyword of two lines never stands in a body, and the blanks before the other one reach back
over a line feed. -/
theorem notes_stand_at_line_starts_indented :
    let body := "a\r\n\n \tNOTE: b"
    let keywords := ["NOTE", "a\nNOTE", "NOTE"]
    let others := ["a\nNOTE", "NOTE"]
    let more := ["BREAKING CHANGE", "a\nNOTE", "NOTE"]
    (∀ keyword, keyword ∈ keywords ↔ keyword ∈ others) ∧ isIn body keywords = isIn body others ∧
      others ⊆ more ∧ isIn body others ∧ isIn body more := by
  intro body keywords others more
  have sameKeywords : ∀ keyword, keyword ∈ keywords ↔ keyword ∈ others := by
    intro keyword
    simp only [keywords, others, List.mem_cons, List.not_mem_nil]
    tauto
  have included : others ⊆ more := List.subset_cons_self _ _
  have found : isIn body others := by
    decide
  exact ⟨sameKeywords, notes_stand_at_line_starts.2.1 body keywords others sameKeywords, included,
    found, notes_stand_at_line_starts.2.2.1 body others more included found⟩

end BreakingNote

end ReleaseAdvisor
