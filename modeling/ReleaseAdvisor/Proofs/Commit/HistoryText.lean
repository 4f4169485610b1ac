import ReleaseAdvisor.Proofs.Commit.HistoryItems

/-!
# Histories as texts

A history that is written out is read back as it was, whatever its headers and bodies hold. The
writer puts every commit down as a pair, and the reader takes a pair as it stands: only a bare
message is split. What is written is not blank, not even for the empty history, since it is read as JSON.
-/

namespace ReleaseAdvisor.Commit

/-- The array of pairs that a history is written as. -/
def listToJson (history : List Commit) : Json :=
  .array (history.map toJson)

theorem ofJson?_toJson (commit : Commit) : ofJson? commit.toJson = some commit := by
  cases commit
  rfl

theorem within_toJson (commit : Commit) (depth : Nat) :
    Json.Within (depth + 1) commit.toJson := by
  apply Json.Within.object
  intro member memberMem
  simp only [List.mem_cons, List.not_mem_nil, or_false] at memberMem
  rcases memberMem with rfl | rfl
  · exact Json.Within.string
  · exact Json.Within.string

theorem within_listToJson (history : List Commit) (depth : Nat) :
    Json.Within (depth + 2) (listToJson history) := by
  apply Json.Within.array
  intro item itemMem
  rcases List.mem_map.mp itemMem with ⟨commit, _, rfl⟩
  exact within_toJson commit depth

theorem parseHistory_of_read? {text : String} {history : List Commit}
    (read : Json.read? text = some (listToJson history)) : parseHistory text = .ok history := by
  have parsed : Json.parse? text = some (.array (history.map toJson)) :=
    Json.parse?_eq_some_iff.mpr ⟨read, within_listToJson history 125⟩
  rw [parseHistory, if_neg (by simp [Json.not_blank_of_parse? parsed]), parsed]
  dsimp only
  rw [Json.mapM_map_of_reads ofJson?_toJson]

theorem parseHistory_toLine (history : List Commit) :
    parseHistory (listToJson history).toLine = .ok history :=
  parseHistory_of_read? (Json.read?_toLine _)

theorem parseHistory_toText (history : List Commit) :
    parseHistory (listToJson history).toText = .ok history :=
  parseHistory_of_read? (Json.read?_toText _)

/-- A history that is written in either layout is read back as it was, and so is every history
that was read from a text. -/
theorem histories_survive_rewriting :
    (∀ history : List Commit,
      parseHistory (listToJson history).toLine = .ok history ∧
        parseHistory (listToJson history).toText = .ok history) ∧
      ∀ text : String,
        (parseHistory text).bind (fun history => parseHistory (listToJson history).toLine) =
            parseHistory text ∧
          (parseHistory text).bind (fun history => parseHistory (listToJson history).toText) =
            parseHistory text := by
  constructor
  · intro history
    exact ⟨parseHistory_toLine history, parseHistory_toText history⟩
  · intro text
    cases parseHistory text with
    | error error => exact ⟨rfl, rfl⟩
    | ok history => exact ⟨parseHistory_toLine history, parseHistory_toText history⟩

end ReleaseAdvisor.Commit
