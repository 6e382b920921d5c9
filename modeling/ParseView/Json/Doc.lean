import ParseView.Fields
import ParseView.Json.Number
import ParseView.Json.StringText

/-!
# Documents, read as far as they go

A document is read once, whatever it is wanted for, and what is read is a tree of its values with
the faults where they were met. A reader of records or of syntax trees then walks that tree in the
order of the text, so of two faults it reports the one that comes first, be it a fault of the text
or one of its own.
-/

namespace ParseView.Json

/-- A value of a document: objects keep the order of their fields. -/
inductive Value where
  | null
  | bool (b : Bool)
  | number (n : Numeral)
  | string (s : String)
  | array (items : List Value)
  | object (fields : List (String × Value))
deriving Repr, Inhabited

/-- How a list or an object ends: closed, with the text behind it, or cut off. -/
inductive Ending where
  | closed (unread : List Char)
  | cut (stop : Stop)
deriving DecidableEq, Repr

/-- A value as far as it was read. Strings and numbers whose text is in order may still hold what
no string or number can hold. -/
inductive Doc where
  | null
  | bool (b : Bool)
  | number (n : Except Fault Numeral)
  | string (s : Except Fault String)
  | array (items : List Doc) (ending : Ending)
  | object (members : List (Except Fault String × Doc)) (ending : Ending)
  /-- A word or number that begins with `first` and breaks off. -/
  | broken (first : Char) (stop : Stop)
  /-- No value begins, or a string breaks off. -/
  | missing (stop : Stop)
deriving Inhabited

/-- The key of a member. -/
abbrev Key := Except Fault String

mutual

/-- The value of a document that was read to its end without a fault. -/
def Doc.value? : Doc → Option Value
  | .null => some .null
  | .bool b => some (.bool b)
  | .number n => n.toOption.map .number
  | .string s => s.toOption.map .string
  | .array items (.closed _) => (Doc.values? items).map .array
  | .object members (.closed _) => (Doc.entries? members).map fun entries =>
      .object (Fields.ofEntries entries)
  | _ => none

def Doc.values? : List Doc → Option (List Value)
  | [] => some []
  | item :: rest => do
    let item ← Doc.value? item
    let rest ← Doc.values? rest
    return item :: rest

def Doc.entries? : List (Key × Doc) → Option (List (String × Value))
  | [] => some []
  | (key, doc) :: rest => do
    let key ← key.toOption
    let value ← Doc.value? doc
    let rest ← Doc.entries? rest
    return (key, value) :: rest

end

/-- The value of a text as far as it was read, and the text behind a value that was read to its
end. -/
structure Document where
  root : Doc
  trailing : List Char
deriving Inhabited

end ParseView.Json
