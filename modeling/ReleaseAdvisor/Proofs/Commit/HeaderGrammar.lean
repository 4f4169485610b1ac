import Mathlib.Data.List.TakeWhile
import ReleaseAdvisor.Commit.Scoped
import ReleaseAdvisor.Proofs.Text.Trimming

/-!
# The grammar of headers

What the parts of a well-formed header look like, and that a header put together from such parts
is read back into them. The grammar of the parts is what reading can yield, so it is wider than
what a person would write: a scope may hold a line feed or an opening parenthesis, and a subject
may be a single blank, which is what reading gives back when nothing but blanks follows the colon.
-/

namespace ReleaseAdvisor.Header

/-- A text that can stand as one scope between the parentheses of a header. -/
structure IsScopeName (scope : String) : Prop where
  nonempty : scope.toList ≠ []
  trimmed : Text.IsTrimmed scope.toList
  noComma : ',' ∉ scope.toList
  noParenthesis : ')' ∉ scope.toList

/-- A text that can stand as the subject of a header: one line that starts with a character other
than a blank, or a lone blank. -/
structure IsSubject (subject : List Char) : Prop where
  nonempty : subject ≠ []
  oneLine : '\n' ∉ subject
  opening : ∀ first ∈ subject.head?, Text.isBlank first → subject = [first]

/-- A header whose parts are all as reading yields them. -/
structure WellFormed (header : Header) : Prop where
  typeNonempty : header.type.toList ≠ []
  typeCharacters : ∀ character ∈ header.type.toList, isTypeCharacter character
  scopeNames : ∀ scope ∈ header.scopes, IsScopeName scope
  subject : IsSubject header.subject.toList

theorem mem_scopesOf {group : List Char} {scope : String} :
    scope ∈ scopesOf group ↔
      ∃ piece ∈ List.splitOn ',' group,
        Text.trim piece ≠ [] ∧ String.ofList (Text.trim piece) = scope := by
  simp only [scopesOf, List.mem_filterMap, List.mem_map]
  constructor
  · rintro ⟨_, ⟨piece, pieceMem, rfl⟩, kept⟩
    refine ⟨piece, pieceMem, ?_⟩
    simpa [List.isEmpty_iff] using kept
  · rintro ⟨piece, pieceMem, nonempty, rfl⟩
    exact ⟨Text.trim piece, ⟨piece, pieceMem, rfl⟩, by simp [nonempty]⟩

theorem isScopeName_of_mem_scopesOf {group : List Char} {scope : String}
    (noParenthesis : ')' ∉ group) (mem : scope ∈ scopesOf group) : IsScopeName scope := by
  rcases mem_scopesOf.mp mem with ⟨piece, pieceMem, nonempty, rfl⟩
  rcases Text.piece_of_splitOn pieceMem with ⟨noComma, inside⟩
  constructor
  · simpa using nonempty
  · simpa using Text.isTrimmed_trim piece
  · intro commaMem
    exact noComma (Text.mem_of_mem_trim (by simpa using commaMem))
  · intro parenthesisMem
    exact noParenthesis (inside (Text.mem_of_mem_trim (by simpa using parenthesisMem)))

/-- The scopes of a group are its pieces between commas that are not blank, without padding. -/
theorem scopesOf_eq_map_filter (group : List Char) :
    scopesOf group =
      (((List.splitOn ',' group).map String.ofList).filter (!Text.isBlankString ·)).map
        Text.trimmed := by
  rw [scopesOf, List.filterMap_map, ← List.filterMap_eq_filter, List.map_filterMap,
    List.filterMap_map]
  apply List.filterMap_congr
  intro piece _
  have blankIff := @Text.trimmed_eq_empty_iff (String.ofList piece)
  rw [Text.trimmed, String.ofList_eq_empty_iff, String.toList_ofList] at blankIff
  cases blank : Text.isBlankString (String.ofList piece) with
  | true => simp [Option.guard, blank, blankIff.mpr blank]
  | false => simp [Option.guard, blank, Text.trimmed, blankIff]

theorem scopesOf_scopeName {scope : String} (name : IsScopeName scope) :
    scopesOf scope.toList = [scope] := by
  rw [scopesOf, List.splitOn_eq_singleton name.noComma]
  simp [name.trimmed.trim_eq, name.nonempty]

theorem splitGroup?_group {group : List Char} (nonempty : group ≠ [])
    (noParenthesis : ')' ∉ group) (rest : List Char) :
    splitGroup? ('(' :: (group ++ ')' :: rest)) = some (scopesOf group, rest) := by
  have inside := Text.bne_of_not_mem noParenthesis
  cases group with
  | nil => contradiction
  | cons first more =>
      simp only [splitGroup?, List.span_eq_takeWhile_dropWhile,
        List.takeWhile_append_of_pos inside, List.dropWhile_append_of_pos inside]
      simp

theorem splitGroup?_eq_some {text rest : List Char} {scopes : List String}
    (read : splitGroup? text = some (scopes, rest)) :
    (∃ group, group ≠ [] ∧ ')' ∉ group ∧ scopes = scopesOf group ∧
      text = '(' :: (group ++ ')' :: rest)) ∨
    (text.head? ≠ some '(' ∧ scopes = [] ∧ rest = text) := by
  unfold splitGroup? at read
  split at read
  · rename_i inside
    rw [List.span_eq_takeWhile_dropWhile] at read
    split at read
    · contradiction
    · contradiction
    · rename_i group closing after nonempty parts
      simp only [Prod.mk.injEq] at parts
      rcases parts with ⟨groupEq, afterEq⟩
      simp only [Option.some.injEq, Prod.mk.injEq] at read
      rcases read with ⟨rfl, rfl⟩
      have closingEq : closing = ')' := by
        have isFirst : closing ∈ (inside.dropWhile (· != ')')).head? := by
          simp [afterEq]
        simpa using Text.stops_of_dropWhile isFirst
      left
      refine ⟨group, nonempty, ?_, rfl, ?_⟩
      · intro mem
        rw [← groupEq] at mem
        simpa using List.mem_takeWhile_imp mem
      · rw [← closingEq, ← groupEq, ← afterEq, List.takeWhile_append_dropWhile]
  · rename_i notOpening
    simp only [Option.some.injEq, Prod.mk.injEq] at read
    rcases read with ⟨rfl, rfl⟩
    right
    refine ⟨?_, rfl, rfl⟩
    intro opening
    cases text with
    | nil => simp at opening
    | cons first more =>
        simp only [List.head?_cons, Option.some.injEq] at opening
        exact notOpening more (by rw [opening])

theorem subjectOf?_of_blank {text : List Char}
    (blank : ∀ character ∈ text, Text.isBlank character) :
    subjectOf? text = (text.filter (· != '\n')).getLast?.map fun last => [last] := by
  have allTaken : text.takeWhile Text.isBlank = text := List.takeWhile_eq_self_iff.mpr blank
  have noneLeft : text.dropWhile Text.isBlank = [] := List.dropWhile_eq_nil_iff.mpr blank
  rw [subjectOf?, List.span_eq_takeWhile_dropWhile, allTaken, noneLeft, List.getLast?_filter]

theorem subjectOf?_of_not_blank {text more : List Char} {first : Char}
    (rest : text.dropWhile Text.isBlank = first :: more) :
    subjectOf? text = some ((first :: more).takeWhile (· != '\n')) := by
  rw [subjectOf?, List.span_eq_takeWhile_dropWhile, rest]

/-- A line feed is a blank, so what follows the blanks starts with neither. -/
theorem not_blank_of_dropWhile {text more : List Char} {first : Char}
    (rest : text.dropWhile Text.isBlank = first :: more) :
    Text.isBlank first = false ∧ first ≠ '\n' := by
  have isFirst : first ∈ (text.dropWhile Text.isBlank).head? := by
    simp [rest]
  have notBlank := Text.stops_of_dropWhile isFirst
  refine ⟨notBlank, ?_⟩
  rintro rfl
  simp [Text.isBlank] at notBlank

theorem isSubject_of_subjectOf? {text subject : List Char}
    (read : subjectOf? text = some subject) : IsSubject subject := by
  cases rest : text.dropWhile Text.isBlank with
  | nil =>
      rw [subjectOf?_of_blank (List.dropWhile_eq_nil_iff.mp rest)] at read
      rcases Option.map_eq_some_iff.mp read with ⟨last, isLast, rfl⟩
      have notLineFeed := List.of_mem_filter (List.mem_of_getLast? isLast)
      constructor
      · simp
      · simpa using (bne_iff_ne.mp notLineFeed).symm
      · simp
  | cons first more =>
      rcases not_blank_of_dropWhile rest with ⟨notBlank, notLineFeed⟩
      rw [subjectOf?_of_not_blank rest] at read
      cases read
      constructor
      · simp [notLineFeed]
      · intro mem
        simpa using List.mem_takeWhile_imp mem
      · simp [notLineFeed, notBlank]

/-- Blanks before a subject are skipped, and the subject itself is kept even if it is a blank. -/
theorem subjectOf?_blanks_append {blanks subject : List Char}
    (allBlank : ∀ character ∈ blanks, Text.isBlank character) (isSubject : IsSubject subject) :
    subjectOf? (blanks ++ subject) = some subject := by
  cases subject with
  | nil => exact absurd rfl isSubject.nonempty
  | cons first more =>
      have oneLine := Text.bne_of_not_mem isSubject.oneLine
      by_cases blank : Text.isBlank first
      · have lone := isSubject.opening first rfl blank
        simp only [List.cons.injEq, true_and] at lone
        subst more
        have notLineFeed := oneLine first (List.mem_singleton_self first)
        rw [subjectOf?_of_blank (by simpa [or_imp, forall_and] using ⟨allBlank, blank⟩)]
        simp [notLineFeed]
      · have rest : (blanks ++ first :: more).dropWhile Text.isBlank = first :: more := by
          rw [List.dropWhile_append_of_pos allBlank, List.dropWhile_cons_of_neg blank]
        rw [subjectOf?_of_not_blank rest, List.takeWhile_eq_self_iff.mpr oneLine]

theorem head?_not_isTypeCharacter {rest afterColon : List Char} {scopes : List String}
    (read : splitGroup? rest = some (scopes, ':' :: afterColon)) :
    ∃ first more, rest = first :: more ∧ isTypeCharacter first = false := by
  rcases splitGroup?_eq_some read with ⟨group, _, _, _, split⟩ | ⟨_, _, split⟩
  · exact ⟨'(', _, split, rfl⟩
  · exact ⟨':', afterColon, split.symm, rfl⟩

theorem ofChars?_append {type rest afterColon : List Char} {scopes : List String}
    (nonempty : type ≠ []) (typeCharacters : ∀ character ∈ type, isTypeCharacter character)
    (groupRead : splitGroup? rest = some (scopes, ':' :: afterColon)) :
    ofChars? (type ++ rest) =
      (subjectOf? afterColon).map fun subject =>
        ⟨String.ofList type, scopes, String.ofList subject⟩ := by
  rcases head?_not_isTypeCharacter groupRead with ⟨first, more, rfl, typeEnds⟩
  rw [ofChars?, List.span_eq_takeWhile_dropWhile,
    List.takeWhile_append_of_pos typeCharacters, List.dropWhile_append_of_pos typeCharacters,
    List.takeWhile_cons_of_neg (by simp [typeEnds]),
    List.dropWhile_cons_of_neg (by simp [typeEnds]), List.append_nil]
  cases type with
  | nil => contradiction
  | cons letter letters => simp only [groupRead]

theorem ofChars?_eq_some_iff {text : List Char} {header : Header} :
    ofChars? text = some header ↔
      ∃ rest afterColon,
        text = header.type.toList ++ rest ∧ header.type.toList ≠ [] ∧
          (∀ character ∈ header.type.toList, isTypeCharacter character) ∧
          splitGroup? rest = some (header.scopes, ':' :: afterColon) ∧
          subjectOf? afterColon = some header.subject.toList := by
  constructor
  · intro read
    rw [ofChars?, List.span_eq_takeWhile_dropWhile] at read
    split at read
    · contradiction
    · rename_i type rest nonempty parts
      simp only [Prod.mk.injEq] at parts
      rcases parts with ⟨typeEq, restEq⟩
      split at read
      · rename_i scopes afterColon groupRead
        rcases Option.map_eq_some_iff.mp read with ⟨subject, subjectRead, rfl⟩
        refine ⟨rest, afterColon, ?_, by simpa using nonempty, ?_, groupRead, by simpa⟩
        · simp [← typeEq, ← restEq]
        · intro character mem
          rw [String.toList_ofList, ← typeEq] at mem
          exact List.mem_takeWhile_imp mem
      · contradiction
  · rintro ⟨rest, afterColon, rfl, nonempty, typeCharacters, groupRead, subjectRead⟩
    rw [ofChars?_append nonempty typeCharacters groupRead, subjectRead]
    simp only [Option.map_some, String.ofList_toList]

theorem wellFormed_of_parse? {text : String} {header : Header}
    (read : parse? text = some header) : header.WellFormed := by
  rcases ofChars?_eq_some_iff.mp read with
    ⟨rest, afterColon, _, nonempty, typeCharacters, groupRead, subjectRead⟩
  refine ⟨nonempty, typeCharacters, ?_, isSubject_of_subjectOf? subjectRead⟩
  intro scope scopeMem
  rcases splitGroup?_eq_some groupRead with ⟨group, _, noParenthesis, scopesEq, _⟩ | ⟨_, isNil, _⟩
  · rw [scopesEq] at scopeMem
    exact isScopeName_of_mem_scopesOf noParenthesis scopeMem
  · simp [isNil] at scopeMem

/-- A header narrowed to a scope name is read back, with that scope alone. -/
theorem parse?_narrowed {header : Header} {scope : String} (wellFormed : header.WellFormed)
    (name : IsScopeName scope) :
    parse? (narrowed header.type scope header.subject) =
      some ⟨header.type, [scope], header.subject⟩ := by
  have groupRead :=
    splitGroup?_group name.nonempty name.noParenthesis (':' :: ' ' :: header.subject.toList)
  rw [scopesOf_scopeName name] at groupRead
  have subjectRead : subjectOf? ([' '] ++ header.subject.toList) = some header.subject.toList :=
    subjectOf?_blanks_append (by simp [Text.isBlank]) wellFormed.subject
  apply ofChars?_eq_some_iff.mpr
  refine ⟨_, _, ?_, wellFormed.typeNonempty, wellFormed.typeCharacters, groupRead, subjectRead⟩
  simp [narrowed]

end ReleaseAdvisor.Header
