import ReleaseAdvisor.Toml.Table

/-!
# Fields of TOML tables

Typed access to the entries of a table. A field may be missing; one of the wrong type refuses the
table.
-/

namespace ReleaseAdvisor.Toml

def asString? : Toml → Option String
  | .string text => some text
  | _ => none

def stringField? (entries : Entries) (key : String) : Option (Option String) :=
  match entries.lookup key with
  | none => some none
  | some value => (asString? value).map some

def stringsField? (entries : Entries) (key : String) : Option (Option (List String)) :=
  match entries.lookup key with
  | none => some none
  | some (.array items) => (items.mapM asString?).map some
  | some _ => none

end ReleaseAdvisor.Toml
