import ReleaseAdvisor.Proofs.Json.OneLine
import ReleaseAdvisor.Proofs.Text.Trimming

/-!
# Texts of one line

A text of one line stays one when it is joined with others of its kind. Lines that are each ended by
a line feed can be told apart again, since none of them has a line feed of its own.
-/

namespace ReleaseAdvisor

/-- A text without line feeds. -/
def Text.IsOneLine (text : String) : Prop :=
  '\n' ∉ text.toList

instance : DecidablePred Text.IsOneLine :=
  fun text => inferInstanceAs (Decidable ('\n' ∉ text.toList))

namespace Text

theorem isOneLine_append {left right : String} :
    IsOneLine (left ++ right) ↔ IsOneLine left ∧ IsOneLine right := by
  simp [IsOneLine]

/-- A text that is written out is settled by its characters. -/
theorem isOneLine_ofList {characters : List Char} (oneLine : '\n' ∉ characters) :
    IsOneLine (String.ofList characters) := by
  rwa [IsOneLine, String.toList_ofList]

theorem isOneLine_toString (value : Nat) : IsOneLine (toString value) := by
  rw [IsOneLine, Nat.toString_eq_ofList_toDigits, String.toList_ofList]
  exact (Json.uncontrolled_toDigits value).lineFeed_not_mem

theorem isOneLine_intercalate {separator : String} (separatorLine : IsOneLine separator)
    {pieces : List String} (pieceLines : ∀ piece ∈ pieces, IsOneLine piece) :
    IsOneLine (separator.intercalate pieces) := by
  intro lineFeedMem
  rw [String.toList_intercalate] at lineFeedMem
  rcases mem_intercalate lineFeedMem with inSeparator | ⟨characters, charactersMem, inPiece⟩
  · exact separatorLine inSeparator
  · rcases List.mem_map.mp charactersMem with ⟨piece, pieceMem, rfl⟩
    exact pieceLines piece pieceMem inPiece

theorem splitOn_lines {lines : List String} (oneLine : ∀ line ∈ lines, IsOneLine line) :
    List.splitOn '\n' (String.join (lines.map (· ++ "\n"))).toList =
      lines.map (·.toList) ++ [[]] := by
  induction lines with
  | nil => simp
  | cons line rest ih =>
      rcases List.forall_mem_cons.mp oneLine with ⟨lineApart, restLines⟩
      have first : (String.join ((line :: rest).map (· ++ "\n"))).toList =
          line.toList ++ '\n' :: (String.join (rest.map (· ++ "\n"))).toList := by
        simp [String.join_cons]
      rw [first, List.splitOn_append_cons_self_of_not_mem lineApart, ih restLines]
      rfl

end Text

end ReleaseAdvisor
