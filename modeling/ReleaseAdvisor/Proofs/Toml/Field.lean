import ReleaseAdvisor.Proofs.Result
import ReleaseAdvisor.Toml.Field

/-!
# What the fields of a table are read from

A field of text is read from a string or from nothing, and a field of texts from an array of strings
or from nothing. Nothing else that may stand under the key is read.
-/

namespace ReleaseAdvisor.Toml

theorem asString?_eq_some_iff {value : Toml} {text : String} :
    value.asString? = some text ↔ value = .string text := by
  cases value <;> simp [asString?]

theorem map_asString?_eq_iff {items : List Toml} {texts : List String} :
    items.map asString? = texts.map some ↔ items = texts.map .string := by
  induction items generalizing texts with
  | nil => cases texts <;> simp
  | cons item rest ih =>
      cases texts with
      | nil => simp
      | cons text more =>
          simp only [List.map_cons, List.cons.injEq, asString?_eq_some_iff, ih]

variable {entries : Entries} {key : String}

theorem stringField?_eq_some_iff {text? : Option String} :
    stringField? entries key = some text? ↔ entries.lookup key = text?.map .string := by
  unfold stringField?
  split
  · rename_i absent
    cases text? <;> simp [absent]
  · rename_i value present
    cases text? <;> simp [present, asString?_eq_some_iff]

theorem stringsField?_eq_some_iff {texts? : Option (List String)} :
    stringsField? entries key = some texts? ↔
      entries.lookup key = texts?.map fun texts => .array (texts.map .string) := by
  unfold stringsField?
  split
  · rename_i absent
    cases texts? <;> simp [absent]
  · rename_i items present
    cases texts? <;>
      simp [present, List.mapM_eq_some_iff, map_asString?_eq_iff]
  · rename_i value notArray present
    cases texts? with
    | none => simp [present]
    | some texts => simpa [present] using notArray (texts.map .string)

end ReleaseAdvisor.Toml
