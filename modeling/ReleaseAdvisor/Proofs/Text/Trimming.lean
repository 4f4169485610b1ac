import Mathlib.Data.List.DropRight
import Mathlib.Data.List.TakeDrop
import ReleaseAdvisor.Text.Blank

/-!
# Trimmed texts

What trimming leaves: a text whose ends are not blank, made of characters of the original, and
unchanged by another trimming. The pieces of a text between separators are characterised along
the way, because scopes are trimmed pieces of a group and titles are made of the pieces of a name.
-/

namespace ReleaseAdvisor.Text

/-- A text that neither starts nor ends with a blank; the empty text is one. -/
structure IsTrimmed (text : List Char) : Prop where
  start : ∀ first ∈ text.head?, isBlank first = false
  ending : ∀ last ∈ text.getLast?, isBlank last = false

theorem dropEndWhile_eq_rdropWhile (drop : Char → Bool) (text : List Char) :
    dropEndWhile drop text = text.rdropWhile drop :=
  rfl

theorem stops_of_dropWhile {drop : Char → Bool} {text : List Char} {first : Char}
    (isFirst : first ∈ (text.dropWhile drop).head?) : drop first = false := by
  have stopped := List.head?_dropWhile_not drop text
  rw [Option.mem_def.mp isFirst] at stopped
  simpa using stopped

theorem stops_of_dropEndWhile {drop : Char → Bool} {text : List Char} {last : Char}
    (isLast : last ∈ (dropEndWhile drop text).getLast?) : drop last = false := by
  rw [dropEndWhile, List.getLast?_reverse] at isLast
  exact stops_of_dropWhile isLast

theorem dropWhile_append_of_stops {drop : Char → Bool} {dropped kept : List Char}
    (inside : ∀ character ∈ dropped, drop character)
    (stops : ∀ first ∈ kept.head?, drop first = false) :
    (dropped ++ kept).dropWhile drop = kept := by
  rw [List.dropWhile_append_of_pos inside]
  cases kept with
  | nil => rfl
  | cons first rest => simp [stops first rfl]

theorem dropEndWhile_append_of_stops {drop : Char → Bool} {kept dropped : List Char}
    (inside : ∀ character ∈ dropped, drop character)
    (stops : ∀ last ∈ kept.getLast?, drop last = false) :
    dropEndWhile drop (kept ++ dropped) = kept := by
  rw [dropEndWhile, List.reverse_append, dropWhile_append_of_stops, List.reverse_reverse]
  · simpa using inside
  · simpa using stops

theorem IsTrimmed.trim_eq {text : List Char} (trimmed : IsTrimmed text) : trim text = text := by
  have startKept : trimStart text = text :=
    dropWhile_append_of_stops (List.forall_mem_nil _) trimmed.start
  have endKept : dropEndWhile isBlank (text ++ []) = text :=
    dropEndWhile_append_of_stops (List.forall_mem_nil _) trimmed.ending
  rw [List.append_nil] at endKept
  rw [trim, startKept, endKept]

theorem isTrimmed_trim (text : List Char) : IsTrimmed (trim text) := by
  constructor
  · intro first firstMem
    -- What is left at the end is a prefix, so it starts as the text without leading blanks does.
    rw [trim, dropEndWhile_eq_rdropWhile] at firstMem
    rcases List.rdropWhile_prefix isBlank (trimStart text) with ⟨dropped, split⟩
    have atStart : first ∈ (text.dropWhile isBlank).head? := by
      rw [← trimStart, ← split]
      exact List.mem_head?_append_of_mem_head? firstMem
    exact stops_of_dropWhile atStart
  · exact fun _ => stops_of_dropEndWhile

theorem mem_of_mem_trim {text : List Char} {character : Char} (mem : character ∈ trim text) :
    character ∈ text := by
  rw [trim, dropEndWhile_eq_rdropWhile] at mem
  exact (List.dropWhile_suffix isBlank).subset ((List.rdropWhile_prefix isBlank _).subset mem)

theorem trim_eq_nil_iff {text : List Char} :
    trim text = [] ↔ ∀ character ∈ text, isBlank character := by
  rw [trim, dropEndWhile_eq_rdropWhile, List.rdropWhile_eq_nil_iff]
  constructor
  · intro restBlank character mem
    rw [← List.takeWhile_append_dropWhile (p := isBlank) (l := text)] at mem
    rcases List.mem_append.mp mem with leading | afterwards
    · exact List.mem_takeWhile_imp leading
    · exact restBlank character afterwards
  · intro allBlank character mem
    exact allBlank character ((List.dropWhile_suffix isBlank).subset mem)

theorem trim_eq_of_split {before core after : List Char} (nonempty : core ≠ [])
    (trimmed : IsTrimmed core) (blankBefore : ∀ character ∈ before, isBlank character)
    (blankAfter : ∀ character ∈ after, isBlank character) :
    trim (before ++ core ++ after) = core := by
  have startDropped : trimStart (before ++ core ++ after) = core ++ after := by
    rw [trimStart, List.append_assoc]
    apply dropWhile_append_of_stops blankBefore
    rw [List.head?_append_of_ne_nil _ nonempty]
    exact trimmed.start
  rw [trim, startDropped]
  exact dropEndWhile_append_of_stops blankAfter trimmed.ending

/-- A text is what trimming leaves of it, between the blanks that trimming removes. -/
theorem exists_padding (text : List Char) :
    ∃ before after, text = before ++ trim text ++ after ∧
      (∀ character ∈ before, isBlank character) ∧ ∀ character ∈ after, isBlank character := by
  refine ⟨text.takeWhile isBlank, (trimStart text).rtakeWhile isBlank, ?_, ?_, ?_⟩
  · rw [List.append_assoc, trim, dropEndWhile_eq_rdropWhile, List.rdropWhile_append_rtakeWhile,
      trimStart, List.takeWhile_append_dropWhile]
  · exact fun _ => List.mem_takeWhile_imp
  · exact fun _ => List.mem_rtakeWhile_imp

theorem trim_padded (text : List Char) {before after : List Char}
    (blankBefore : ∀ character ∈ before, isBlank character)
    (blankAfter : ∀ character ∈ after, isBlank character) :
    trim (before ++ text ++ after) = trim text := by
  by_cases nothing : trim text = []
  · rw [nothing, trim_eq_nil_iff, List.forall_mem_append, List.forall_mem_append]
    exact ⟨⟨blankBefore, trim_eq_nil_iff.mp nothing⟩, blankAfter⟩
  · rcases exists_padding text with ⟨lead, trail, split, blankLead, blankTrail⟩
    have regrouped : before ++ text ++ after = before ++ lead ++ trim text ++ (trail ++ after) := by
      conv_lhs => rw [split]
      simp only [List.append_assoc]
    rw [regrouped]
    apply trim_eq_of_split nothing (isTrimmed_trim text)
    · exact List.forall_mem_append.mpr ⟨blankBefore, blankLead⟩
    · exact List.forall_mem_append.mpr ⟨blankTrail, blankAfter⟩

theorem trimmed_padded (text : String) {before after : String} (blankBefore : isBlankString before)
    (blankAfter : isBlankString after) : trimmed (before ++ text ++ after) = trimmed text := by
  rw [trimmed, String.toList_append, String.toList_append,
    trim_padded _ (List.all_eq_true.mp blankBefore) (List.all_eq_true.mp blankAfter), trimmed]

theorem trimmed_eq_empty_iff {text : String} : trimmed text = "" ↔ isBlankString text := by
  rw [trimmed, String.ofList_eq_empty_iff, trim_eq_nil_iff, isBlankString, List.all_eq_true]

theorem trimmed_trimmed (text : String) : trimmed (trimmed text) = trimmed text := by
  rw [trimmed, trimmed, String.toList_ofList, (isTrimmed_trim text.toList).trim_eq]

theorem isTrimmed_trimmed (text : String) : IsTrimmed (trimmed text).toList := by
  rw [trimmed, String.toList_ofList]
  exact isTrimmed_trim text.toList

theorem trimmed_eq_self_iff {text : String} : trimmed text = text ↔ IsTrimmed text.toList := by
  rw [trimmed, ← String.toList_inj, String.toList_ofList]
  constructor
  · intro unchanged
    rw [← unchanged]
    exact isTrimmed_trim text.toList
  · exact IsTrimmed.trim_eq

theorem not_blank_of_trimmed_ne_empty {text : String} (nonempty : trimmed text ≠ "") :
    isBlankString (trimmed text) = false := by
  rw [← Bool.not_eq_true, ← trimmed_eq_empty_iff, trimmed_trimmed]
  exact nonempty

theorem bne_of_not_mem {avoided : Char} {text : List Char} (notMem : avoided ∉ text) :
    ∀ character ∈ text, (character != avoided) = true := by
  intro character characterMem
  rw [bne_iff_ne]
  rintro rfl
  exact notMem characterMem

/-- A text up to its first separator. -/
theorem exists_firstPiece (separator : Char) (text : List Char) :
    ∃ piece after, text = piece ++ after ∧ separator ∉ piece ∧
      ∀ first ∈ after.head?, first = separator := by
  refine ⟨text.takeWhile (· != separator), text.dropWhile (· != separator),
    List.takeWhile_append_dropWhile.symm, ?_, ?_⟩
  · intro inside
    simpa using List.mem_takeWhile_imp inside
  · intro first isFirst
    simpa using stops_of_dropWhile isFirst

/-- A text behind its last separator. -/
theorem exists_lastPiece (separator : Char) (text : List Char) :
    ∃ before piece, text = before ++ piece ∧ separator ∉ piece ∧
      ∀ last ∈ before.getLast?, last = separator := by
  refine ⟨dropEndWhile (· != separator) text, text.rtakeWhile (· != separator),
    List.rdropWhile_append_rtakeWhile.symm, ?_, ?_⟩
  · intro inside
    simpa using List.mem_rtakeWhile_imp inside
  · intro last isLast
    simpa using stops_of_dropEndWhile isLast

/-- A text by its pieces: a last piece, or a piece and a separator in front of another text. -/
@[elab_as_elim]
theorem pieces_induction (separator : Char) {motive : List Char → Prop}
    (last : ∀ piece, separator ∉ piece → motive piece)
    (ended : ∀ piece rest, separator ∉ piece → motive rest → motive (piece ++ separator :: rest))
    (text : List Char) : motive text := by
  by_cases separated : separator ∈ text
  · rcases List.eq_append_cons_of_mem separated with ⟨piece, rest, split, apart⟩
    have shown := pieces_induction separator last ended rest
    rw [split]
    exact ended piece rest apart shown
  · exact last text separated
termination_by text.length
decreasing_by
  rw [split, List.length_append, List.length_cons]
  omega

theorem mem_splitOn_append {separator : Char} {piece : List Char} (apart : separator ∉ piece)
    {after : List Char} (stops : ∀ first ∈ after.head?, first = separator) :
    piece ∈ List.splitOn separator (piece ++ after) := by
  cases after with
  | nil => simp [List.splitOn_eq_singleton apart]
  | cons first rest =>
      obtain rfl := stops first rfl
      simp [List.splitOn_append_cons_self_of_not_mem apart]

/-- The pieces of a split text are the stretches without a separator that run from one separator,
or the start, to the next one, or the end. -/
theorem mem_splitOn_iff {separator : Char} {text piece : List Char} :
    piece ∈ List.splitOn separator text ↔
      separator ∉ piece ∧ ∃ before after, text = before ++ piece ++ after ∧
        (∀ last ∈ before.getLast?, last = separator) ∧
        ∀ first ∈ after.head?, first = separator := by
  constructor
  · intro mem
    induction text using pieces_induction separator with
    | last line apart =>
        rw [List.splitOn_eq_singleton apart, List.mem_singleton] at mem
        subst piece
        exact ⟨apart, [], [], by simp, by simp, by simp⟩
    | ended line rest apart ih =>
        rw [List.splitOn_append_cons_self_of_not_mem apart, List.mem_cons] at mem
        rcases mem with rfl | later
        · exact ⟨apart, [], separator :: rest, by simp, by simp, by simp⟩
        · rcases ih later with ⟨pieceApart, before, after, restEq, starts, stops⟩
          refine ⟨pieceApart, line ++ separator :: before, after, by simp [restEq], ?_, stops⟩
          cases before with
          | nil => simp
          | cons first more => simpa using starts
  · rintro ⟨apart, before, after, rfl, starts, stops⟩
    have pieceFirst := mem_splitOn_append apart stops
    rcases List.eq_nil_or_concat before with rfl | ⟨earlier, last, rfl⟩
    · simpa using pieceFirst
    · obtain rfl := starts last (by simp)
      simp [List.splitOn_append_cons_self, pieceFirst]

/-- A piece of a split is made of characters of the text, but never of the separator. -/
theorem piece_of_splitOn {separator : Char} {text piece : List Char}
    (mem : piece ∈ List.splitOn separator text) : separator ∉ piece ∧ piece ⊆ text := by
  rcases mem_splitOn_iff.mp mem with ⟨apart, before, after, rfl, _⟩
  refine ⟨apart, ?_⟩
  intro character inside
  simp [inside]

theorem mem_intercalate {separator : List Char} {character : Char} {pieces : List (List Char)}
    (mem : character ∈ separator.intercalate pieces) :
    character ∈ separator ∨ ∃ piece ∈ pieces, character ∈ piece := by
  induction pieces with
  | nil => simp at mem
  | cons first rest ih =>
      cases rest with
      | nil =>
          rw [List.intercalate_singleton] at mem
          exact Or.inr ⟨first, List.mem_singleton_self first, mem⟩
      | cons second more =>
          rw [List.intercalate_cons_cons, List.mem_append, List.mem_append] at mem
          rcases mem with (inFirst | inSeparator) | inRest
          · exact Or.inr ⟨first, List.mem_cons_self, inFirst⟩
          · exact Or.inl inSeparator
          · rcases ih inRest with inSeparator | ⟨piece, pieceMem, inPiece⟩
            · exact Or.inl inSeparator
            · exact Or.inr ⟨piece, List.mem_cons_of_mem first pieceMem, inPiece⟩

theorem flatten_splitOnP (separates : Char → Bool) (text : List Char) :
    (List.splitOnP separates text).flatten = text.filter (!separates ·) := by
  induction text with
  | nil => simp
  | cons first rest ih =>
      rw [List.splitOnP_cons_eq_if_modifyHead, List.filter_cons]
      cases separates first with
      | true => simpa using ih
      | false =>
          rcases List.exists_cons_of_ne_nil (List.splitOnP_ne_nil separates rest) with
            ⟨piece, pieces, restSplit⟩
          rw [restSplit] at ih ⊢
          simp [← ih]

theorem all_intercalate {test : Char → Bool} {separator : Char} (passes : test separator)
    (pieces : List (List Char)) :
    ([separator].intercalate pieces).all test = pieces.all (·.all test) := by
  induction pieces with
  | nil => rfl
  | cons first rest ih =>
      cases rest with
      | nil => simp
      | cons second more =>
          rw [List.intercalate_cons_cons, List.all_append, List.all_append, ih]
          simp [passes]

end ReleaseAdvisor.Text
