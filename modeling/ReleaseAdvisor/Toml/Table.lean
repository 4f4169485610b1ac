/-!
# TOML values and tables

The values of a TOML document, and the rules by which its lines build tables. How a table came
into being decides whether a later line may add to it:

* a table written in braces is finished where it is written;
* a table opened by a header may be entered by other headers, not by dotted keys, and is opened
  only once;
* a table that a longer header implies may still be opened;
* a table that dotted keys create may be extended by dotted keys, not opened.
-/

namespace ReleaseAdvisor

/-- How a table came into being. -/
inductive Toml.TableKind where
  | inline
  | header
  | implied
  | dotted
  deriving DecidableEq, Repr

/-- A TOML value. Only the kind of a float or a date matters. `tables` are the tables of a
repeated double-bracket header, in order. -/
inductive Toml where
  | string (text : String)
  | boolean (value : Bool)
  | integer (value : Int)
  | float
  | date
  | array (items : List Toml)
  | tables (items : List Toml)
  | table (kind : Toml.TableKind) (entries : List (String × Toml))
  deriving Repr

namespace Toml

abbrev Entries := List (String × Toml)

/-- Gives an entry that exists a new value. -/
def replaceEntry (key : String) (value : Toml) (entries : Entries) : Entries :=
  entries.map fun entry => if entry.1 = key then (key, value) else entry

/-- Changes the table at the end of a path. Missing tables on the way are created. Where the path
meets the tables of a repeated header, it continues in the last of them. -/
def alter (throughDots : Bool) (update : TableKind → Entries → Option Entries) :
    List String → TableKind → Entries → Option Entries
  | [], kind, entries => update kind entries
  | key :: rest, _, entries =>
      match entries.lookup key with
      | none =>
          let kind := if throughDots then TableKind.dotted else .implied
          (alter throughDots update rest kind []).map fun created =>
            entries ++ [(key, .table kind created)]
      | some (.table kind inner) =>
          if kind = .inline ∨ (throughDots ∧ kind = .header) then none
          else
            (alter throughDots update rest kind inner).map fun changed =>
              replaceEntry key (.table kind changed) entries
      | some (.tables items) =>
          match items.getLast? with
          | some (.table kind inner) =>
              (alter throughDots update rest kind inner).map fun changed =>
                replaceEntry key (.tables (items.dropLast ++ [.table kind changed])) entries
          | _ => none
      | some _ => none

/-- Adds `path.key = value` to a table. A key is set only once, and a path of dots must end in a
table that dots have created. -/
def assign (path : List String) (key : String) (value : Toml) :
    TableKind → Entries → Option Entries :=
  alter true
    (fun kind entries =>
      if decide (kind = .dotted) = path.isEmpty then none
      else if (entries.lookup key).isSome then none
      else some (entries ++ [(key, value)]))
    path

def openTable (path : List String) (key : String) : Entries → Option Entries :=
  alter false
    (fun _ entries =>
      match entries.lookup key with
      | none => some (entries ++ [(key, .table .header [])])
      | some (.table .implied inner) => some (replaceEntry key (.table .header inner) entries)
      | some _ => none)
    path .header

def appendTable (path : List String) (key : String) : Entries → Option Entries :=
  alter false
    (fun _ entries =>
      match entries.lookup key with
      | none => some (entries ++ [(key, .tables [.table .header []])])
      | some (.tables items) =>
          some (replaceEntry key (.tables (items ++ [.table .header []])) entries)
      | some _ => none)
    path .header

inductive Statement where
  | assign (path : List String) (key : String) (value : Toml)
  | openTable (path : List String) (key : String)
  | appendTable (path : List String) (key : String)

/-- A document of which some statements have been read: its entries, and the path of the table
that the last header opened. -/
structure Draft where
  entries : Entries
  current : List String

def Draft.apply (draft : Draft) : Statement → Option Draft
  | .assign path key value =>
      (alter false (Toml.assign path key value) draft.current .header draft.entries).map
        fun entries => { draft with entries }
  | .openTable path key =>
      (Toml.openTable path key draft.entries).map fun entries => ⟨entries, path ++ [key]⟩
  | .appendTable path key =>
      (Toml.appendTable path key draft.entries).map fun entries => ⟨entries, path ++ [key]⟩

def ofStatements? (statements : List Statement) : Option Entries :=
  (statements.foldlM Draft.apply ⟨[], []⟩).map (·.entries)

def ofPairs? (pairs : List (List String × String × Toml)) : Option Toml :=
  (pairs.foldlM (fun entries (path, key, value) => assign path key value .header entries) []).map
    (.table .inline)

end Toml

end ReleaseAdvisor
