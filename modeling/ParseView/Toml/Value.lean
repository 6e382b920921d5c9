import ParseView.Fields

/-!
# Values of a settings file

A settings file is a table of tables. It may name a table in several ways, and how a table came into
being decides how it may be added to later: a table can be defined only once.
-/

namespace ParseView.Toml

/-- How a table came into being. -/
inductive Origin where
  /-- By a header of its own. -/
  | header
  /-- On the way of a header to a table inside of it. -/
  | implied
  /-- On the way of a dotted key. -/
  | dotted
  /-- In braces, which close it for good. -/
  | inline
deriving DecidableEq, Repr

inductive Value where
  | boolean (b : Bool)
  | string (s : String)
  | integer (n : Int)
  | float
  | dateTime
  /-- A list of tables can be written as one header for each of its tables. -/
  | array (items : List Value) (ofHeaders : Bool)
  | table (origin : Origin) (entries : List (String × Value))
deriving Repr, Inhabited

abbrev Entries := Fields Value

/-- A table while it is being added to. -/
structure Table where
  origin : Origin
  entries : Entries
deriving Repr

def Table.toValue (table : Table) : Value := .table table.origin table.entries

/-- May a key lead into a table? A dotted key may not lead into one that has a header, and nothing
leads into one in braces. -/
def Origin.isOpen (dotted : Bool) : Origin → Bool
  | .inline => false
  | .header => !dotted
  | .implied | .dotted => true

/-- Changes the table that a path leads to. Tables that are missing on the way come into being; a
list of tables leads into its last one. -/
def Table.modify (dotted : Bool) (f : Table → Option Table) : List String → Table → Option Table
  | [], table => f table
  | key :: path, table =>
    match Fields.get? key table.entries with
    | none => do
      let inner ← modify dotted f path ⟨if dotted then .dotted else .implied, []⟩
      return { table with entries := Fields.insert key inner.toValue table.entries }
    | some (.table origin entries) =>
      if origin.isOpen dotted then do
        let inner ← modify dotted f path ⟨origin, entries⟩
        return { table with entries := Fields.insert key inner.toValue table.entries }
      else none
    | some (.array items true) =>
      match items.reverse with
      | .table origin entries :: before => do
        let inner ← modify dotted f path ⟨origin, entries⟩
        let items := (inner.toValue :: before).reverse
        return { table with entries := Fields.insert key (.array items true) table.entries }
      | _ => none
    | some _ => none

/-- Sets a key that is new. -/
def Table.define (key : String) (value : Value) (table : Table) : Option Table :=
  match Fields.get? key table.entries with
  | none => some { table with entries := Fields.insert key value table.entries }
  | some _ => none

/-- Sets a dotted key, whose last part goes into a table that only such keys made. -/
def Table.assign (path : List String) (key : String) (value : Value) (table : Table) :
    Option Table :=
  table.modify true (fun inner =>
    if path ≠ [] ∧ inner.origin ≠ .dotted then none else inner.define key value) path

/-- Opens the table of a header. -/
def Table.openHeader (key : String) (table : Table) : Option Table :=
  match Fields.get? key table.entries with
  | none => table.define key (.table .header [])
  | some (.table .implied entries) =>
    some { table with entries := Fields.insert key (.table .header entries) table.entries }
  | some _ => none

/-- Opens the next table of a list of tables. -/
def Table.openItem (key : String) (table : Table) : Option Table :=
  match Fields.get? key table.entries with
  | none => table.define key (.array [.table .header []] true)
  | some (.array items true) =>
    some { table with
      entries := Fields.insert key (.array (items ++ [.table .header []]) true) table.entries }
  | some _ => none

end ParseView.Toml
