import Mathlib.Data.Nat.Digits.Defs
import ReleaseAdvisor.Json.Writer

/-!
# Values on one line

The compact layout writes no control. What could bring one in is the text of a string, and there
every control is escaped. So a line of output that holds a value in this layout ends where the
value ends.
-/

namespace ReleaseAdvisor.Json

/-- A text without characters below U+0020. -/
def Uncontrolled (text : List Char) : Prop :=
  ∀ character ∈ text, ¬character < ' '

theorem uncontrolled_nil : Uncontrolled [] := by
  simp [Uncontrolled]

theorem uncontrolled_cons {first : Char} {rest : List Char} :
    Uncontrolled (first :: rest) ↔ ¬first < ' ' ∧ Uncontrolled rest := by
  simp [Uncontrolled]

theorem uncontrolled_append {left right : List Char} :
    Uncontrolled (left ++ right) ↔ Uncontrolled left ∧ Uncontrolled right :=
  List.forall_mem_append

theorem Uncontrolled.lineFeed_not_mem {text : List Char} (uncontrolled : Uncontrolled text) :
    '\n' ∉ text := by
  intro lineFeedMem
  exact uncontrolled '\n' lineFeedMem (by decide)

theorem hexDigit_uncontrolled {value : Nat} (inRange : value < 16) : ¬hexDigit value < ' ' := by
  revert value
  decide

theorem uncontrolled_shortEscape {letter : Char} (isPlain : ¬letter < ' ') :
    Uncontrolled ['\\', letter] := by
  simpa [uncontrolled_cons, uncontrolled_nil] using isPlain

theorem uncontrolled_escape (character : Char) : Uncontrolled (escape character) := by
  unfold escape
  split
  · exact uncontrolled_shortEscape (by decide)
  · exact uncontrolled_shortEscape (by decide)
  · exact uncontrolled_shortEscape (by decide)
  · exact uncontrolled_shortEscape (by decide)
  · exact uncontrolled_shortEscape (by decide)
  · exact uncontrolled_shortEscape (by decide)
  · exact uncontrolled_shortEscape (by decide)
  · split
    · rename_i isControl
      have inRange : character.toNat < 32 := isControl
      have high : ¬hexDigit (character.toNat / 16) < ' ' := hexDigit_uncontrolled (by omega)
      have low : ¬hexDigit (character.toNat % 16) < ' ' := hexDigit_uncontrolled (by omega)
      simp [uncontrolled_cons, uncontrolled_nil, high, low]
    · rename_i notControl
      simpa [uncontrolled_cons, uncontrolled_nil] using notControl

theorem uncontrolled_quote (text : String) : Uncontrolled (quote text) := by
  rw [quote, List.cons_append, uncontrolled_cons, uncontrolled_append]
  refine ⟨by decide, ?_, by simp [Uncontrolled]⟩
  intro character characterMem
  rcases List.mem_flatMap.mp characterMem with ⟨written, _, escapedMem⟩
  exact uncontrolled_escape written character escapedMem

theorem uncontrolled_toDigits (value : Nat) : Uncontrolled (Nat.toDigits 10 value) := by
  intro character characterMem isControl
  have isDigit := Nat.isDigit_of_mem_toDigits (by decide) (by decide) characterMem
  have inRange : character.toNat < 32 := isControl
  have above : 48 ≤ character.toNat := by
    simp only [Char.isDigit, Bool.and_eq_true, decide_eq_true_eq] at isDigit
    exact isDigit.1
  omega

theorem digitChar_uncontrolled : ∀ digit : Fin 10, ¬digit.val.digitChar < ' ' := by
  decide

theorem uncontrolled_written (number : Number) : Uncontrolled number.written := by
  have sign : ∀ negative : Prop, [Decidable negative] →
      Uncontrolled (if negative then ['-'] else []) := by
    intro negative _
    split <;> simp [Uncontrolled]
  have fraction : Uncontrolled (number.fraction.map fun digit => digit.val.digitChar) := by
    intro character characterMem
    rcases List.mem_map.mp characterMem with ⟨digit, _, rfl⟩
    exact digitChar_uncontrolled digit
  rw [Number.written]
  simp only [uncontrolled_append]
  refine ⟨⟨⟨sign _, uncontrolled_toDigits _⟩, ?_⟩, ?_⟩
  · split
    · exact uncontrolled_nil
    · exact uncontrolled_cons.mpr ⟨by decide, fraction⟩
  · split
    · exact uncontrolled_nil
    · rw [List.cons_append, uncontrolled_cons, uncontrolled_append]
      exact ⟨by decide, sign _, uncontrolled_toDigits _⟩

theorem uncontrolled_atom (value : Json) : Uncontrolled value.atom := by
  have words : ∀ word ∈ ["null", "true", "false"], Uncontrolled word.toList := by
    simp [Uncontrolled]
  cases value with
  | null => exact words "null" (by decide)
  | bool truth =>
      cases truth with
      | true => exact words "true" (by decide)
      | false => exact words "false" (by decide)
  | number written => exact uncontrolled_written written
  | string text => exact uncontrolled_quote text
  | array items => exact uncontrolled_nil
  | object members => exact uncontrolled_nil

mutual

theorem uncontrolled_compact : ∀ value : Json, Uncontrolled value.compact
  | .null => uncontrolled_atom .null
  | .bool truth => uncontrolled_atom (.bool truth)
  | .number written => uncontrolled_atom (.number written)
  | .string text => uncontrolled_atom (.string text)
  | .array items => by
      rw [compact, List.cons_append, uncontrolled_cons, uncontrolled_append]
      exact ⟨by decide, uncontrolled_compactItems items, by simp [Uncontrolled]⟩
  | .object members => by
      rw [compact, List.cons_append, uncontrolled_cons, uncontrolled_append]
      exact ⟨by decide, uncontrolled_compactMembers members, by simp [Uncontrolled]⟩

theorem uncontrolled_compactItems : ∀ items : List Json, Uncontrolled (compactItems items)
  | [] => uncontrolled_nil
  | [item] => uncontrolled_compact item
  | item :: second :: others => by
      have later := uncontrolled_compactItems (second :: others)
      rw [compactItems, uncontrolled_append, uncontrolled_cons]
      · exact ⟨uncontrolled_compact item, by decide, later⟩
      · simp

theorem uncontrolled_compactMembers : ∀ members : List (String × Json),
    Uncontrolled (compactMembers members)
  | [] => uncontrolled_nil
  | [(name, value)] => by
      rw [compactMembers, uncontrolled_append, uncontrolled_cons]
      exact ⟨uncontrolled_quote name, by decide, uncontrolled_compact value⟩
  | (name, value) :: second :: others => by
      have later := uncontrolled_compactMembers (second :: others)
      rw [compactMembers, List.append_assoc, uncontrolled_append, List.cons_append,
        uncontrolled_cons, uncontrolled_append, uncontrolled_cons]
      · exact ⟨uncontrolled_quote name, by decide, uncontrolled_compact value, by decide, later⟩
      · simp

end

theorem lineFeed_not_mem_toLine (value : Json) : '\n' ∉ value.toLine.toList := by
  rw [toLine, String.toList_ofList]
  exact (uncontrolled_compact value).lineFeed_not_mem

end ReleaseAdvisor.Json
