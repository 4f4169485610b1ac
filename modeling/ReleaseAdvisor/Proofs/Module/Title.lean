import ReleaseAdvisor.Module.Identity
import ReleaseAdvisor.Proofs.Text.Trimming
import ReleaseAdvisor.Proofs.Text.Uppercase

/-!
# Titles

A title is made of the words of a name, the stretches of it that have no separator. Everything about
titles follows from two facts about the words. The words of a name that is cut at a separator are
those of its two parts. And a text that has no separator is one word, so the title of a title could
differ from it in the first character only, which is an upper case already.
-/

namespace ReleaseAdvisor.Identity

variable {name left right word : List Char} {separator character : Char}

theorem isWordSeparator_iff : isWordSeparator character ↔ character = '_' ∨ character = '-' := by
  simp [isWordSeparator]

/-! ## Words -/

theorem wordsOf_append (separates : isWordSeparator separator) (left right : List Char) :
    wordsOf (left ++ separator :: right) = wordsOf left ++ wordsOf right := by
  rw [wordsOf, List.splitOnP_append_cons left right separates, List.filter_append, wordsOf, wordsOf]

theorem flatten_wordsOf (name : List Char) :
    (wordsOf name).flatten = name.filter (!isWordSeparator ·) := by
  rw [wordsOf, List.flatten_filter_not_isEmpty, Text.flatten_splitOnP]

theorem ne_nil_of_mem_wordsOf (wordMem : word ∈ wordsOf name) : word ≠ [] := by
  simpa using (List.mem_filter.mp wordMem).2

theorem not_isWordSeparator_of_mem_wordsOf (wordMem : word ∈ wordsOf name)
    (inWord : character ∈ word) : isWordSeparator character = false := by
  have inWords : character ∈ (wordsOf name).flatten := List.mem_flatten_of_mem wordMem inWord
  rw [flatten_wordsOf, List.mem_filter] at inWords
  simpa using inWords.2

theorem wordsOf_eq_nil_iff :
    wordsOf name = [] ↔ ∀ character ∈ name, isWordSeparator character := by
  have noWords : wordsOf name = [] ↔ (wordsOf name).flatten = [] := by
    constructor
    · intro none
      rw [none, List.flatten_nil]
    · intro noCharacters
      rw [List.eq_nil_iff_forall_not_mem]
      intro word wordMem
      exact ne_nil_of_mem_wordsOf wordMem (List.flatten_eq_nil_iff.mp noCharacters word wordMem)
  rw [noWords, flatten_wordsOf, List.filter_eq_nil_iff]
  simp

theorem wordsOf_of_unseparated (nonempty : name ≠ [])
    (unseparated : ∀ character ∈ name, isWordSeparator character = false) :
    wordsOf name = [name] := by
  rw [wordsOf, List.splitOnP_eq_singleton unseparated]
  simp [nonempty]

/-! ## Capitalized words -/

theorem all_isBlank_capitalized (word : List Char) :
    (capitalized word).all Text.isBlank = word.all Text.isBlank := by
  cases word with
  | nil => rfl
  | cons first rest =>
      rw [capitalized, List.all_append, Text.all_isBlank_upperCase, List.all_cons]

theorem capitalized_ne_nil (nonempty : word ≠ []) : capitalized word ≠ [] := by
  cases word with
  | nil => contradiction
  | cons first rest => exact List.append_ne_nil_of_left_ne_nil (Text.upperCase_ne_nil first) rest

theorem not_isWordSeparator_of_mem_upperCase {upper : Char}
    (apart : isWordSeparator character = false) (upperMem : upper ∈ Text.upperCase character) :
    isWordSeparator upper = false := by
  rw [← Bool.not_eq_true, isWordSeparator_iff]
  intro separates
  have fixed : upper.toNat ∈ Text.fixedCodes := by
    rcases separates with rfl | rfl <;> decide
  rw [← Text.eq_of_fixed_mem_upperCase upperMem fixed, ← Bool.not_eq_true,
    isWordSeparator_iff] at apart
  exact apart separates

theorem not_isWordSeparator_of_mem_capitalized
    (unseparated : ∀ character ∈ word, isWordSeparator character = false)
    (mem : character ∈ capitalized word) : isWordSeparator character = false := by
  cases word with
  | nil => exact absurd mem List.not_mem_nil
  | cons first rest =>
      rcases List.forall_mem_cons.mp unseparated with ⟨firstApart, restApart⟩
      rcases List.mem_append.mp mem with inUpper | inRest
      · exact not_isWordSeparator_of_mem_upperCase firstApart inUpper
      · exact restApart character inRest

/-- A text that starts with a capitalized word is capitalized. -/
theorem capitalized_append (nonempty : word ≠ []) (rest : List Char) :
    capitalized (capitalized word ++ rest) = capitalized word ++ rest := by
  cases word with
  | nil => contradiction
  | cons first others =>
      rcases List.exists_cons_of_ne_nil (Text.upperCase_ne_nil first) with ⟨upper, more, upperEq⟩
      have settled : Text.upperCase upper = [upper] :=
        Text.upperCase_of_mem_upperCase (by rw [upperEq]; exact List.mem_cons_self)
      rw [capitalized, upperEq, List.cons_append, List.cons_append, capitalized, settled,
        List.singleton_append]

/-! ## Titles of names -/

/-- The title of a name is blank if the name has nothing but blanks and word separators. -/
theorem isBlankString_titleOf (name : String) :
    Text.isBlankString (titleOf name) =
      name.toList.all fun character => isWordSeparator character || Text.isBlank character := by
  calc Text.isBlankString (titleOf name)
    _ = (titleChars name.toList).all Text.isBlank := by
      rw [Text.isBlankString, titleOf, String.toList_ofList]
    _ = (wordsOf name.toList).all fun word => (capitalized word).all Text.isBlank := by
      rw [titleChars, Text.all_intercalate (by decide), List.all_map]
      rfl
    _ = (wordsOf name.toList).flatten.all Text.isBlank := by
      simp only [all_isBlank_capitalized, List.all_flatten]
    _ = name.toList.all fun character => isWordSeparator character || Text.isBlank character := by
      simp only [flatten_wordsOf, List.all_filter, Bool.not_not]

theorem titleChars_of_wordsOf_eq_cons {words : List (List Char)}
    (wordsEq : wordsOf name = word :: words) :
    ∃ rest, titleChars name = capitalized word ++ rest := by
  rw [titleChars, wordsEq, List.map_cons]
  cases words.map capitalized with
  | nil => exact ⟨[], by simp⟩
  | cons second more => exact ⟨_, by rw [List.intercalate_cons_cons, List.append_assoc]⟩

theorem titleChars_eq_nil_iff : titleChars name = [] ↔ wordsOf name = [] := by
  constructor
  · intro untitled
    cases wordsEq : wordsOf name with
    | nil => rfl
    | cons word words =>
        have nonempty : word ≠ [] := ne_nil_of_mem_wordsOf (wordsEq ▸ List.mem_cons_self)
        rcases titleChars_of_wordsOf_eq_cons wordsEq with ⟨rest, titleEq⟩
        rw [titleEq, List.append_eq_nil_iff] at untitled
        exact absurd untitled.1 (capitalized_ne_nil nonempty)
  · intro wordless
    rw [titleChars, wordless]
    rfl

theorem not_isWordSeparator_of_mem_titleChars (mem : character ∈ titleChars name) :
    isWordSeparator character = false := by
  rcases Text.mem_intercalate mem with isSpace | ⟨piece, pieceMem, inPiece⟩
  · rw [List.mem_singleton.mp isSpace]
    decide
  · rcases List.mem_map.mp pieceMem with ⟨word, wordMem, rfl⟩
    exact not_isWordSeparator_of_mem_capitalized
      (fun _ => not_isWordSeparator_of_mem_wordsOf wordMem) inPiece

theorem titleChars_titleChars (name : List Char) :
    titleChars (titleChars name) = titleChars name := by
  cases wordsEq : wordsOf name with
  | nil =>
      rw [titleChars_eq_nil_iff.mpr wordsEq]
      rfl
  | cons word words =>
      have nonempty : word ≠ [] := ne_nil_of_mem_wordsOf (wordsEq ▸ List.mem_cons_self)
      -- The title is one word, and its first word is capitalized already.
      have titled : titleChars name ≠ [] := by
        rw [ne_eq, titleChars_eq_nil_iff, wordsEq]
        exact List.cons_ne_nil _ _
      have oneWord : wordsOf (titleChars name) = [titleChars name] :=
        wordsOf_of_unseparated titled fun _ => not_isWordSeparator_of_mem_titleChars
      rcases titleChars_of_wordsOf_eq_cons wordsEq with ⟨rest, titleEq⟩
      calc titleChars (titleChars name)
        _ = capitalized (titleChars name) := by
          rw [titleChars, oneWord, List.map_singleton, List.intercalate_singleton]
        _ = titleChars name := by
          rw [titleEq, capitalized_append nonempty]

/-- The title of a name as text. -/
theorem titleOf_eq_intercalate (name : String) :
    titleOf name =
      " ".intercalate ((wordsOf name.toList).map fun word => String.ofList (capitalized word)) := by
  rw [titleOf, titleChars, ← String.toList_inj, String.toList_ofList, String.toList_intercalate,
    List.map_map]
  simp [Function.comp_def]

theorem titleOf_eq_empty_iff {name : String} : titleOf name = "" ↔ wordsOf name.toList = [] := by
  rw [titleOf, String.ofList_eq_empty_iff, titleChars_eq_nil_iff]

/-- Two titles as one, with a space between them unless one of them is empty. -/
def joinTitles (left right : String) : String :=
  if left = "" then right
  else if right = "" then left
  else left ++ " " ++ right

theorem titleOf_append (separates : isWordSeparator separator) (left right : String) :
    titleOf (left ++ String.singleton separator ++ right) =
      joinTitles (titleOf left) (titleOf right) := by
  have words : wordsOf (left ++ String.singleton separator ++ right).toList =
      wordsOf left.toList ++ wordsOf right.toList := by
    rw [← wordsOf_append separates]
    simp
  rw [joinTitles, titleOf_eq_intercalate, words, List.map_append]
  by_cases leftWordless : wordsOf left.toList = []
  · rw [if_pos (titleOf_eq_empty_iff.mpr leftWordless), leftWordless, titleOf_eq_intercalate right]
    rfl
  · rw [if_neg (titleOf_eq_empty_iff.not.mpr leftWordless)]
    by_cases rightWordless : wordsOf right.toList = []
    · rw [if_pos (titleOf_eq_empty_iff.mpr rightWordless), rightWordless, List.map_nil,
        List.append_nil, titleOf_eq_intercalate left]
    · rw [if_neg (titleOf_eq_empty_iff.not.mpr rightWordless), titleOf_eq_intercalate left,
        titleOf_eq_intercalate right]
      exact String.intercalate_append_of_ne_nil (by simpa using leftWordless)
        (by simpa using rightWordless)

/-- The title of a name that is cut at an underscore or a hyphen is the titles of the two parts,
joined by a space unless one is empty. No title has an underscore or a hyphen, a title is empty only
if the name has nothing else, and the title of a title is the title itself. -/
theorem titles_of_parts (left right : String) {separator : Char}
    (separates : separator = '_' ∨ separator = '-') :
    titleOf (left ++ String.singleton separator ++ right) =
        joinTitles (titleOf left) (titleOf right) ∧
      '_' ∉ (titleOf left).toList ∧ '-' ∉ (titleOf left).toList ∧
      (titleOf left = "" ↔ ∀ character ∈ left.toList, character = '_' ∨ character = '-') ∧
      titleOf (titleOf left) = titleOf left := by
  have apart : ∀ character ∈ (titleOf left).toList, isWordSeparator character = false := by
    intro character mem
    rw [titleOf, String.toList_ofList] at mem
    exact not_isWordSeparator_of_mem_titleChars mem
  refine ⟨titleOf_append (isWordSeparator_iff.mpr separates) left right, ?_, ?_, ?_, ?_⟩
  · intro underscore
    exact absurd (apart _ underscore) (by decide)
  · intro hyphen
    exact absurd (apart _ hyphen) (by decide)
  · simp only [titleOf_eq_empty_iff, wordsOf_eq_nil_iff, isWordSeparator_iff]
  · rw [titleOf, titleOf, String.toList_ofList, titleChars_titleChars]

/-- Separators at the ends and next to each other add nothing, and a letter whose upper case is two
letters starts a word. -/
theorem titles_of_parts_separated :
    ('_' = '_' ∨ '_' = '-') ∧ titleOf ("-key_" ++ String.singleton '_' ++ "ßx-") = "Key SSx" ∧
      joinTitles (titleOf "-key_") (titleOf "ßx-") = "Key SSx" ∧ titleOf "-key_" ≠ "" ∧
      titleOf (titleOf "-key_") = "Key" := by
  have separates : '_' = '_' ∨ '_' = '-' := Or.inl rfl
  have joined : joinTitles (titleOf "-key_") (titleOf "ßx-") = "Key SSx" := by
    decide +kernel
  have title : titleOf "-key_" = "Key" := by
    decide +kernel
  rcases titles_of_parts "-key_" "ßx-" separates with ⟨composed, _, _, untitled, again⟩
  refine ⟨separates, composed.trans joined, joined, ?_, again.trans title⟩
  intro empty
  exact absurd (untitled.mp empty 'k' (by decide)) (by decide)

end ReleaseAdvisor.Identity
