import ParseView.Toml.Scalar

/-!
# Reading a settings file

A file is read line by line: a header opens a table, and keys are set in the table that was opened
last. What is not in order anywhere makes the whole file unreadable.
-/

namespace ParseView.Toml

/-- How many lists and tables in braces may lie in each other. -/
def depthLimit : Nat := 80

mutual

/-- Reads a value, inside of which `room` more lists and tables may lie in each other. -/
def value? (fuel room : Nat) (s : List Char) : Option (Value × List Char) :=
  match fuel with
  | 0 => none
  | fuel + 1 =>
    match s with
    | '[' :: rest =>
      if room = 0 then none else items? fuel (room - 1) [] (skipLines rest.length rest)
    | '{' :: rest =>
      if room = 0 then none
      else members? fuel (room - 1) ⟨.inline, []⟩ (skipLines rest.length rest)
    | c :: rest =>
      if c = '"' ∨ c = '\'' then (quoted? false (c :: rest)).map fun (s, rest) => (.string s, rest)
      else scalar? (c :: rest)
    | [] => none

/-- Reads a list from an item or its end, with the items before in reverse. -/
def items? (fuel room : Nat) (items : List Value) (s : List Char) : Option (Value × List Char) :=
  match fuel with
  | 0 => none
  | fuel + 1 =>
    match s with
    | ']' :: rest => some (.array items.reverse false, rest)
    | s => do
      let (value, rest) ← value? fuel room s
      match skipLines rest.length rest with
      | ',' :: rest => items? fuel room (value :: items) (skipLines rest.length rest)
      | ']' :: rest => return (.array (value :: items).reverse false, rest)
      | _ => none

/-- Reads a table in braces from a key or its end. -/
def members? (fuel room : Nat) (table : Table) (s : List Char) : Option (Value × List Char) :=
  match fuel with
  | 0 => none
  | fuel + 1 =>
    match s with
    | '}' :: rest => some (table.toValue, rest)
    | s => do
      let ((path, key), rest) ← key? s.length s
      let rest ← exactly? '=' rest
      let (value, rest) ← value? fuel room (skipBlanks rest)
      let table ← table.assign path key value
      match skipLines rest.length rest with
      | ',' :: rest => members? fuel room table (skipLines rest.length rest)
      | '}' :: rest => return (table.toValue, rest)
      | _ => none

end

/-- A file as far as it was read: its table, and the way to the table that was opened last. -/
structure State where
  root : Table
  path : List String

/-- Reads a header behind its first bracket. -/
def State.header? (state : State) (s : List Char) : Option (State × List Char) :=
  match s with
  | '[' :: rest => do
    let ((path, key), rest) ← key? rest.length rest
    let rest ← exactly? ']' (← exactly? ']' rest)
    let root ← state.root.modify false (·.openItem key) path
    return (⟨root, path ++ [key]⟩, rest)
  | s => do
    let ((path, key), rest) ← key? s.length s
    let rest ← exactly? ']' rest
    let root ← state.root.modify false (·.openHeader key) path
    return (⟨root, path ++ [key]⟩, rest)

/-- Reads a key and its value. -/
def State.entry? (state : State) (s : List Char) : Option (State × List Char) := do
  let ((path, key), rest) ← key? s.length s
  let rest ← exactly? '=' rest
  let (value, rest) ← value? (2 * rest.length + 2) depthLimit (skipBlanks rest)
  let root ← state.root.modify false (·.assign path key value) state.path
  return (⟨root, state.path⟩, rest)

/-- Reads all lines. -/
def State.lines? (fuel : Nat) (state : State) (s : List Char) : Option Table :=
  match fuel with
  | 0 => none
  | fuel + 1 =>
    match skipLines s.length s with
    | [] => some state.root
    | '[' :: rest => do
      let (state, rest) ← state.header? rest
      state.lines? fuel (← lineEnd? rest)
    | s => do
      let (state, rest) ← state.entry? s
      state.lines? fuel (← lineEnd? rest)

/-- A mark that may stand before a text. -/
def byteOrderMark : Char := '\uFEFF'

/-- The entries of a settings file. -/
def read? (text : String) : Option Entries :=
  let s := text.toList
  let s := if s.head? = some byteOrderMark then s.tail else s
  ((State.mk ⟨.header, []⟩ []).lines? (s.length + 1) s).map (·.entries)

end ParseView.Toml
