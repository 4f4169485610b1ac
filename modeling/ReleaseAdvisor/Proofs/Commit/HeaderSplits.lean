import ReleaseAdvisor.Proofs.Commit.HeaderGrammar

/-!
# Headers as splits of a text

A header is a text that can be split into an opening, which ends at a colon, and a tail of blanks,
a subject, and whatever follows the line of the subject. The opening is the only one that a text
can have, because each of its parts ends at a character that cannot belong to it. The tail is not:
blanks may go to the padding or to the subject, and the line feeds among them separate lines as
well. Reading takes the split with the longest padding. So where a text has a split at all, what is
read off it is unique.

The padding is as long as it can be where the subject starts with a character that is not blank, or
is the last character before nothing but line feeds.
-/

namespace ReleaseAdvisor.Header

/-- What stands up to the colon of a header: its type and perhaps a group of scopes. -/
@[ext]
structure Opening where
  type : String
  group? : Option String
  type_nonempty : type ≠ ""
  type_characters : ∀ character ∈ type.toList, isTypeCharacter character
  group_nonempty : ∀ group ∈ group?, group ≠ ""
  group_noParenthesis : ∀ group ∈ group?, ')' ∉ group.toList

/-- What stands after the colon: blanks, the subject, and what follows the line of the subject. -/
@[ext]
structure Tail where
  padding : String
  subject : String
  rest : String
  padding_blank : Text.isBlankString padding
  subject_nonempty : subject ≠ ""
  subject_oneLine : '\n' ∉ subject.toList
  rest_apart : ∀ first ∈ rest.toList.head?, first = '\n'

structure Split where
  opening : Opening
  tail : Tail

/-- The front of a text can be told from the text if its characters stop where it ends. -/
theorem append_inj_of_stops (belongs : Char → Bool) {front back otherFront otherBack : List Char}
    (inside : ∀ character ∈ front, belongs character)
    (otherInside : ∀ character ∈ otherFront, belongs character)
    (stops : ∀ first ∈ back.head?, belongs first = false)
    (otherStops : ∀ first ∈ otherBack.head?, belongs first = false)
    (same : front ++ back = otherFront ++ otherBack) : front = otherFront ∧ back = otherBack := by
  have sameBack : back = otherBack := by
    rw [← Text.dropWhile_append_of_stops inside stops, same,
      Text.dropWhile_append_of_stops otherInside otherStops]
  subst otherBack
  exact ⟨List.append_cancel_right same, rfl⟩

/-! ## Openings -/

namespace Opening

def groupText (opening : Opening) : String :=
  match opening.group? with
  | none => ""
  | some group => "(" ++ group ++ ")"

def text (opening : Opening) : String :=
  opening.type ++ opening.groupText ++ ":"

/-- The scopes that an opening names: the pieces of its group between commas, without padding and
without the blank ones. -/
def scopes (opening : Opening) : List String :=
  match opening.group? with
  | none => []
  | some group =>
      (((List.splitOn ',' group.toList).map String.ofList).filter (!Text.isBlankString ·)).map
        Text.trimmed

theorem toList_text (opening : Opening) :
    opening.text.toList = opening.type.toList ++ (opening.groupText.toList ++ [':']) := by
  simp [text]

theorem splitGroup?_groupText (opening : Opening) (after : List Char) :
    splitGroup? (opening.groupText.toList ++ ':' :: after) =
      some (opening.scopes, ':' :: after) := by
  cases grouped : opening.group? with
  | none => simp [groupText, scopes, grouped, splitGroup?]
  | some group =>
      have nonempty : group.toList ≠ [] := by
        simpa using opening.group_nonempty group grouped
      have read := splitGroup?_group nonempty (opening.group_noParenthesis group grouped)
        (':' :: after)
      rw [scopesOf_eq_map_filter] at read
      simpa [groupText, scopes, grouped] using read

/-- What stands up to the colon is read off, whatever follows. -/
theorem parse?_text_append (opening : Opening) (after : String) :
    parse? (opening.text ++ after) =
      (subjectOf? after.toList).map fun subject =>
        ⟨opening.type, opening.scopes, String.ofList subject⟩ := by
  have nonempty : opening.type.toList ≠ [] := by
    simpa using opening.type_nonempty
  have read := ofChars?_append nonempty opening.type_characters
    (opening.splitGroup?_groupText after.toList)
  rw [String.ofList_toList] at read
  rw [parse?, String.toList_append, toList_text, ← read]
  simp

theorem not_isTypeCharacter_groupText (opening : Opening) (after : List Char) :
    ∀ first ∈ (opening.groupText.toList ++ ':' :: after).head?, isTypeCharacter first = false := by
  intro first isFirst
  rcases head?_not_isTypeCharacter (opening.splitGroup?_groupText after) with
    ⟨actual, more, split, typeEnds⟩
  rw [split, List.head?_cons, Option.mem_some_iff] at isFirst
  rw [← isFirst]
  exact typeEnds

theorem group?_eq_of_append_eq {opening other : Opening} {after otherAfter : List Char}
    (same : opening.groupText.toList ++ ':' :: after =
      other.groupText.toList ++ ':' :: otherAfter) :
    opening.group? = other.group? ∧ after = otherAfter := by
  unfold groupText at same
  cases grouped : opening.group? with
  | none =>
      cases otherGrouped : other.group? with
      | none => simpa [grouped, otherGrouped] using same
      | some otherGroup => simp [grouped, otherGrouped] at same
  | some group =>
      cases otherGrouped : other.group? with
      | none => simp [grouped, otherGrouped] at same
      | some otherGroup =>
          simp only [grouped, otherGrouped, String.toList_append, List.append_assoc,
            List.append_cancel_left_eq] at same
          have parts := append_inj_of_stops (· != ')')
            (Text.bne_of_not_mem (opening.group_noParenthesis group grouped))
            (Text.bne_of_not_mem (other.group_noParenthesis otherGroup otherGrouped))
            (by simp) (by simp) same
          rw [String.toList_inj] at parts
          simpa using parts

/-- A text has one opening at most. -/
theorem eq_of_append_eq {opening other : Opening} {after otherAfter : String}
    (same : opening.text ++ after = other.text ++ otherAfter) :
    opening = other ∧ after = otherAfter := by
  have sameChars := congrArg String.toList same
  simp only [String.toList_append, toList_text, List.append_assoc, List.singleton_append]
    at sameChars
  rcases append_inj_of_stops isTypeCharacter opening.type_characters other.type_characters
    (opening.not_isTypeCharacter_groupText _) (other.not_isTypeCharacter_groupText _) sameChars
    with ⟨sameType, sameGroup⟩
  rcases group?_eq_of_append_eq sameGroup with ⟨groupEq, afterEq⟩
  exact ⟨Opening.ext (String.toList_inj.mp sameType) groupEq, String.toList_inj.mp afterEq⟩

theorem exists_of_parse? {written : String} {header : Header}
    (read : parse? written = some header) :
    ∃ (opening : Opening) (after : String), opening.text ++ after = written := by
  rcases ofChars?_eq_some_iff.mp read with
    ⟨rest, after, writtenEq, nonempty, typeCharacters, groupRead, _⟩
  have typeNonempty : header.type ≠ "" := by
    simpa using nonempty
  rcases splitGroup?_eq_some groupRead with
    ⟨group, groupNonempty, noParenthesis, _, restEq⟩ | ⟨_, _, restEq⟩
  · refine ⟨⟨header.type, some (String.ofList group), typeNonempty, typeCharacters, ?_, ?_⟩,
      String.ofList after, ?_⟩
    · simpa using groupNonempty
    · simpa using noParenthesis
    · rw [← String.toList_inj, writtenEq, restEq]
      simp [text, groupText]
  · refine ⟨⟨header.type, none, typeNonempty, typeCharacters, by simp, by simp⟩,
      String.ofList after, ?_⟩
    rw [← String.toList_inj, writtenEq, ← restEq]
    simp [text, groupText]

end Opening

/-! ## Tails -/

namespace Tail

def text (tail : Tail) : String :=
  tail.padding ++ tail.subject ++ tail.rest

/-- No other tail of the same text has a longer padding. -/
def IsGreedy (tail : Tail) : Prop :=
  ∀ other : Tail, other.text = tail.text → other.padding.length ≤ tail.padding.length

theorem toList_text (tail : Tail) :
    tail.text.toList = tail.padding.toList ++ (tail.subject.toList ++ tail.rest.toList) := by
  simp [text]

theorem blank_of_mem_padding (tail : Tail) {character : Char}
    (characterMem : character ∈ tail.padding.toList) : Text.isBlank character :=
  List.all_eq_true.mp tail.padding_blank character characterMem

theorem exists_start (tail : Tail) :
    ∃ start more, tail.subject.toList = start :: more ∧ start ≠ '\n' := by
  cases subjectEq : tail.subject.toList with
  | nil => exact absurd (String.toList_eq_nil_iff.mp subjectEq) tail.subject_nonempty
  | cons start more =>
      refine ⟨start, more, rfl, ?_⟩
      rintro rfl
      exact tail.subject_oneLine (by simp [subjectEq])

/-- A longer padding takes in the start of the subject. -/
theorem exists_taken_of_longer {tail other : Tail} (same : other.text = tail.text)
    (longer : tail.padding.length < other.padding.length) :
    ∃ first more, other.padding.toList = tail.padding.toList ++ first :: more ∧
      tail.subject.toList ++ tail.rest.toList =
        first :: more ++ (other.subject.toList ++ other.rest.toList) := by
  have sameChars := congrArg String.toList same
  rw [toList_text, toList_text] at sameChars
  rw [← String.length_toList, ← String.length_toList] at longer
  rcases List.append_eq_append_iff.mp sameChars with
    ⟨added, paddingEq, _⟩ | ⟨taken, paddingEq, restEq⟩
  · rw [paddingEq, List.length_append] at longer
    omega
  · cases taken with
    | nil => simp [paddingEq] at longer
    | cons first more => exact ⟨first, more, paddingEq, restEq⟩

/-- The padding cannot take in more if the subject starts with a character that is not blank, or if
it is a lone character after which no other subject can come. -/
theorem isGreedy_of_ends {tail : Tail}
    (ends : (∀ first ∈ tail.subject.toList.head?, Text.isBlank first = false) ∨
      tail.subject.length = 1 ∧ ∀ character ∈ tail.rest.toList, character = '\n') :
    tail.IsGreedy := by
  intro other same
  by_contra longer
  rcases exists_taken_of_longer same (Nat.lt_of_not_le longer) with
    ⟨first, more, paddingEq, afterEq⟩
  rcases tail.exists_start with ⟨start, others, subjectEq, _⟩
  rw [subjectEq, List.cons_append, List.cons_append, List.cons.injEq] at afterEq
  rcases afterEq with ⟨rfl, afterEq⟩
  rcases ends with notBlank | ⟨single, lineFeeds⟩
  · have blank : Text.isBlank start := other.blank_of_mem_padding (by simp [paddingEq])
    rw [notBlank start (by simp [subjectEq])] at blank
    contradiction
  · rcases other.exists_start with ⟨otherStart, otherMore, otherEq, notLineFeed⟩
    rw [← String.length_toList, subjectEq, List.length_cons] at single
    have alone : others = [] := List.length_eq_zero_iff.mp (by omega)
    apply notLineFeed
    apply lineFeeds
    rw [alone, List.nil_append] at afterEq
    simp [afterEq, otherEq]

theorem eq_of_isGreedy {tail other : Tail} (same : tail.text = other.text)
    (greedy : tail.IsGreedy) (otherGreedy : other.IsGreedy) : tail = other := by
  have sameLength : tail.padding.toList.length = other.padding.toList.length := by
    rw [String.length_toList, String.length_toList]
    exact Nat.le_antisymm (otherGreedy tail same) (greedy other same.symm)
  have sameChars := congrArg String.toList same
  rw [toList_text, toList_text] at sameChars
  rcases List.append_inj sameChars sameLength with ⟨paddingEq, afterEq⟩
  have restStops : ∀ tail : Tail, ∀ first ∈ tail.rest.toList.head?, (first != '\n') = false := by
    intro tail first isFirst
    simp [tail.rest_apart first isFirst]
  rcases append_inj_of_stops (· != '\n') (Text.bne_of_not_mem tail.subject_oneLine)
    (Text.bne_of_not_mem other.subject_oneLine) (restStops tail) (restStops other) afterEq
    with ⟨subjectEq, restEq⟩
  exact Tail.ext (String.toList_inj.mp paddingEq) (String.toList_inj.mp subjectEq)
    (String.toList_inj.mp restEq)

end Tail

/-- Only a text of line feeds has no subject. -/
theorem subjectOf?_eq_none_iff {text : List Char} :
    subjectOf? text = none ↔ ∀ character ∈ text, character = '\n' := by
  cases rest : text.dropWhile Text.isBlank with
  | nil =>
      have blank := List.dropWhile_eq_nil_iff.mp rest
      rw [subjectOf?_of_blank blank]
      simp
  | cons first more =>
      rw [subjectOf?_of_not_blank rest]
      have firstMem : first ∈ text := (List.dropWhile_suffix Text.isBlank).subset (by simp [rest])
      simp only [reduceCtorEq, false_iff, not_forall]
      exact ⟨first, firstMem, (not_blank_of_dropWhile rest).2⟩

namespace Tail

def ofChars (padding subject rest : List Char)
    (blank : ∀ character ∈ padding, Text.isBlank character) (nonempty : subject ≠ [])
    (oneLine : '\n' ∉ subject) (apart : ∀ first ∈ rest.head?, first = '\n') : Tail where
  padding := String.ofList padding
  subject := String.ofList subject
  rest := String.ofList rest
  padding_blank := by simpa [Text.isBlankString] using blank
  subject_nonempty := by simpa using nonempty
  subject_oneLine := by simpa using oneLine
  rest_apart := by simpa using apart

theorem exists_isGreedy_of_blank {written : String} {last : Char}
    (blank : ∀ character ∈ written.toList, Text.isBlank character)
    (isLast : (written.toList.filter (· != '\n')).getLast? = some last) :
    ∃ tail : Tail, tail.text = written ∧ tail.IsGreedy ∧ tail.subject = String.ofList [last] := by
  rw [List.getLast?_filter, List.find?_eq_some_iff_append] at isLast
  rcases isLast with ⟨notLineFeed, after, before, reverseEq, afterLineFeeds⟩
  have writtenEq : written.toList = before.reverse ++ ([last] ++ after.reverse) := by
    rw [← List.reverse_reverse written.toList, reverseEq]
    simp
  have lineFeeds : ∀ character ∈ after.reverse, character = '\n' := by
    simpa using afterLineFeeds
  have beforeBlank : ∀ character ∈ before.reverse, Text.isBlank character := by
    intro character characterMem
    apply blank
    rw [writtenEq]
    exact List.mem_append_left _ characterMem
  have oneLine : '\n' ∉ [last] := by
    simpa using (bne_iff_ne.mp notLineFeed).symm
  refine ⟨ofChars before.reverse [last] after.reverse beforeBlank (by simp) oneLine ?_, ?_, ?_,
    rfl⟩
  · intro first isFirst
    exact lineFeeds first (List.mem_of_mem_head? isFirst)
  · rw [← String.toList_inj, writtenEq, toList_text]
    simp [ofChars]
  · apply isGreedy_of_ends
    right
    simpa [ofChars] using afterLineFeeds

theorem exists_isGreedy_of_not_blank {written : String} {first : Char} {more : List Char}
    (rest : written.toList.dropWhile Text.isBlank = first :: more) :
    ∃ tail : Tail, tail.text = written ∧ tail.IsGreedy ∧
      tail.subject = String.ofList ((first :: more).takeWhile (· != '\n')) := by
  rcases not_blank_of_dropWhile rest with ⟨notBlank, notLineFeed⟩
  refine ⟨ofChars (written.toList.takeWhile Text.isBlank)
    ((first :: more).takeWhile (· != '\n')) ((first :: more).dropWhile (· != '\n'))
    (fun _ => List.mem_takeWhile_imp) (by simp [notLineFeed]) ?_ ?_, ?_, ?_, rfl⟩
  · intro lineFeedMem
    simpa using List.mem_takeWhile_imp lineFeedMem
  · intro start isStart
    simpa using Text.stops_of_dropWhile isStart
  · rw [← String.toList_inj, toList_text]
    simp only [ofChars, String.toList_ofList, List.takeWhile_append_dropWhile]
    rw [← rest, List.takeWhile_append_dropWhile]
  · apply isGreedy_of_ends
    left
    simp [ofChars, notLineFeed, notBlank]

/-- Every subject that is read stands in a tail with the longest padding. -/
theorem exists_isGreedy {written : String} {subject : List Char}
    (read : subjectOf? written.toList = some subject) :
    ∃ tail : Tail, tail.text = written ∧ tail.IsGreedy ∧
      tail.subject = String.ofList subject := by
  cases rest : written.toList.dropWhile Text.isBlank with
  | nil =>
      have blank := List.dropWhile_eq_nil_iff.mp rest
      rw [subjectOf?_of_blank blank] at read
      rcases Option.map_eq_some_iff.mp read with ⟨last, isLast, rfl⟩
      exact exists_isGreedy_of_blank blank isLast
  | cons first more =>
      rw [subjectOf?_of_not_blank rest] at read
      cases read
      exact exists_isGreedy_of_not_blank rest

theorem subjectOf?_ne_none (tail : Tail) : subjectOf? tail.text.toList ≠ none := by
  intro unread
  rcases tail.exists_start with ⟨start, more, subjectEq, notLineFeed⟩
  apply notLineFeed
  apply subjectOf?_eq_none_iff.mp unread
  simp [toList_text, subjectEq]

/-- What is read after a colon is the subject of the tail with the longest padding. -/
theorem subjectOf?_text {tail : Tail} (greedy : tail.IsGreedy) :
    subjectOf? tail.text.toList = some tail.subject.toList := by
  rcases Option.ne_none_iff_exists'.mp tail.subjectOf?_ne_none with ⟨subject, read⟩
  rcases exists_isGreedy read with ⟨other, same, otherGreedy, subjectEq⟩
  rw [eq_of_isGreedy same otherGreedy greedy] at subjectEq
  rw [read, subjectEq, String.toList_ofList]

end Tail

/-! ## Splits -/

namespace Split

def text (split : Split) : String :=
  split.opening.text ++ split.tail.text

def header (split : Split) : Header :=
  ⟨split.opening.type, split.opening.scopes, split.tail.subject⟩

/-- No other split of the same text has a longer padding. -/
def IsGreedy (split : Split) : Prop :=
  ∀ other : Split, other.text = split.text →
    other.tail.padding.length ≤ split.tail.padding.length

theorem isGreedy_iff {split : Split} : split.IsGreedy ↔ split.tail.IsGreedy := by
  constructor
  · intro greedy tail same
    apply greedy ⟨split.opening, tail⟩
    rw [text, text, same]
  · intro greedy other same
    exact greedy other.tail (Opening.eq_of_append_eq same).2

theorem eq_of_isGreedy {split other : Split} (same : split.text = other.text)
    (greedy : split.IsGreedy) (otherGreedy : other.IsGreedy) : split = other := by
  rcases Opening.eq_of_append_eq same with ⟨openingEq, tailTextEq⟩
  have tailEq : split.tail = other.tail :=
    Tail.eq_of_isGreedy tailTextEq (isGreedy_iff.mp greedy) (isGreedy_iff.mp otherGreedy)
  cases split
  cases other
  cases openingEq
  cases tailEq
  rfl

theorem parse?_text {split : Split} (greedy : split.IsGreedy) :
    parse? split.text = some split.header := by
  rw [text, Opening.parse?_text_append, Tail.subjectOf?_text (isGreedy_iff.mp greedy),
    Option.map_some, String.ofList_toList]
  rfl

theorem parse?_text_ne_none (split : Split) : parse? split.text ≠ none := by
  rw [text, Opening.parse?_text_append, ne_eq, Option.map_eq_none_iff]
  exact split.tail.subjectOf?_ne_none

theorem exists_isGreedy {written : String} {header : Header}
    (read : parse? written = some header) :
    ∃ split : Split, split.text = written ∧ split.IsGreedy ∧ split.header = header := by
  rcases Opening.exists_of_parse? read with ⟨opening, after, rfl⟩
  rw [Opening.parse?_text_append] at read
  rcases Option.map_eq_some_iff.mp read with ⟨subject, subjectRead, rfl⟩
  rcases Tail.exists_isGreedy subjectRead with ⟨tail, rfl, greedy, subjectEq⟩
  exact ⟨⟨opening, tail⟩, rfl, isGreedy_iff.mpr greedy, by rw [Split.header, subjectEq]⟩

end Split

/-- A text is read as a header exactly if it splits into an opening and a tail, and what is read are
the type, the scopes and the subject of the split with the longest padding, of which there is only
one. If nothing but blanks follows the colon, the subject is the last of them that is no line feed,
and without such a blank there is no header. -/
theorem reading_takes_greedy_split :
    (∀ (written : String) (header : Header), parse? written = some header ↔
      ∃ split : Split, split.text = written ∧ split.IsGreedy ∧ split.header = header) ∧
    (∀ split other : Split, split.text = other.text → split.IsGreedy → other.IsGreedy →
      split = other) ∧
    (∀ written : String, parse? written = none ↔ ∀ split : Split, split.text ≠ written) ∧
    (∀ (opening : Opening) (blanks : String), Text.isBlankString blanks →
      parse? (opening.text ++ blanks) =
        (blanks.toList.filter (· != '\n')).getLast?.map fun last =>
          ⟨opening.type, opening.scopes, String.ofList [last]⟩) := by
  refine ⟨?_, ?_, ?_, ?_⟩
  · intro written header
    constructor
    · exact Split.exists_isGreedy
    · rintro ⟨split, rfl, greedy, rfl⟩
      exact Split.parse?_text greedy
  · intro split other same greedy otherGreedy
    exact Split.eq_of_isGreedy same greedy otherGreedy
  · intro written
    constructor
    · rintro unread split rfl
      exact split.parse?_text_ne_none unread
    · intro noSplit
      cases read : parse? written with
      | none => rfl
      | some header =>
          rcases Split.exists_isGreedy read with ⟨split, isWritten, _⟩
          exact absurd isWritten (noSplit split)
  · intro opening blanks blank
    rw [Opening.parse?_text_append, subjectOf?_of_blank (List.all_eq_true.mp blank),
      Option.map_map]
    rfl

/-- Four blanks follow the colon. The padding takes the first, the second is the subject, and the
line feeds are left over; if only they follow, there is no header. -/
theorem reading_takes_greedy_split_among_blanks :
    let opening : Opening := {
      type := "feat", group? := some "a, ,(b"
      type_nonempty := by decide, type_characters := List.all_eq_true.mp (by decide)
      group_nonempty := by simp, group_noParenthesis := by simp }
    let split : Split := ⟨opening, {
      padding := "\t", subject := " ", rest := "\n\n"
      padding_blank := by decide, subject_nonempty := by decide, subject_oneLine := by decide
      rest_apart := by simp }⟩
    (split.IsGreedy ∧ parse? "feat(a, ,(b):\t \n\n" = some ⟨"feat", ["a", "(b"], " "⟩) ∧
      (∀ other : Split, split.text = other.text → other.IsGreedy → split = other) ∧
      Text.isBlankString "\n\n" ∧ parse? "feat(a, ,(b):\n\n" = none := by
  intro opening split
  have greedy : split.IsGreedy := by
    apply Split.isGreedy_iff.mpr
    apply Tail.isGreedy_of_ends
    right
    exact ⟨by decide, by simp [split]⟩
  have blank : Text.isBlankString "\n\n" := by
    decide
  have reading := reading_takes_greedy_split
  refine ⟨⟨greedy, ?_⟩, ?_, blank, ?_⟩
  · exact (reading.1 _ _).mpr ⟨split, by decide, greedy, by decide⟩
  · intro other same otherGreedy
    exact reading.2.1 split other same greedy otherGreedy
  · exact reading.2.2.2 opening "\n\n" blank

end ReleaseAdvisor.Header
