import ParseView.Aria.Rule
import ParseView.Json.Limit
import ParseView.Json.Record

/-!
# Authored tables

The table of attributes is written by hand, each entry with the name of a type. An entry becomes a
rule if there is such a type; true and false among its values are kept apart from the tokens.
-/

namespace ParseView.Aria

open Json (Doc Reader Record Refusal)

inductive AuthoredValue where
  | boolean (b : Bool)
  | token (s : String)
deriving DecidableEq, Repr

def AuthoredValue.isBoolean : AuthoredValue → Bool
  | .boolean _ => true
  | .token _ => false

def AuthoredValue.token? : AuthoredValue → Option String
  | .boolean _ => none
  | .token s => some s

structure Descriptor where
  tag : String
  values : Option (List AuthoredValue) := none
  allowUndefined : Bool := false
deriving DecidableEq, Repr

/-- The rule for a descriptor whose type is known. -/
def Descriptor.rule (descriptor : Descriptor) (kind : Kind) : Rule where
  kind := kind
  allowed := descriptor.values.map fun values => values.filterMap AuthoredValue.token?
  allowUndefined := descriptor.allowUndefined
  allowBooleans := descriptor.values.any fun values => values.any AuthoredValue.isBoolean

def Descriptor.rule? (descriptor : Descriptor) : Option Rule :=
  (Kind.ofTag? descriptor.tag).map descriptor.rule

/-- A table: names of attributes with their descriptors. -/
abbrev AuthoredTable := List (String × Descriptor)

/-- Why a table has no rules. -/
inductive TableError where
  | malformed (refusal : Refusal)
  | unknownType (name tag : String)
  | duplicateAttribute (name : String)
deriving DecidableEq, Repr

def TableError.message : TableError → String
  | .malformed refusal => "Malformed attribute table: " ++ refusal.message
  | .unknownType name tag => "Attribute '" ++ name ++ "' has unknown type '" ++ tag ++ "'"
  | .duplicateAttribute name => "Attribute '" ++ name ++ "' is defined more than once"

/-- The rules of a table behind the names in `seen`. -/
def rulesFrom (seen : List String) : AuthoredTable → Except TableError (List (String × Rule))
  | [] => .ok []
  | (name, descriptor) :: rest => do
    if name ∈ seen then throw (.duplicateAttribute name)
    match descriptor.rule? with
    | none => throw (.unknownType name descriptor.tag)
    | some rule =>
      let rules ← rulesFrom (name :: seen) rest
      return (name, rule) :: rules

/-- The rules of a table. A name that comes again is told before a type that is not known. -/
def AuthoredTable.rules (table : AuthoredTable) : Except TableError (List (String × Rule)) :=
  rulesFrom [] table

/-! ## Reading a table -/

/-- How many lists and objects lie around a value of an entry. -/
def valueDepth : Nat := 4

/-- The value of an entry: any value is read in full, and only then it is decided whether it is one
of the two kinds that there are. -/
def readValue (doc : Doc) : Except Refusal AuthoredValue :=
  match doc.fault? (Json.depthLimit - valueDepth) with
  | some fault => .error (.malformed fault.cause)
  | none =>
    match doc with
    | .bool b => .ok (.boolean b)
    | .string (.ok s) => .ok (.token s)
    | _ => .error (.noAlternative "AuthoredValue")

def readDescriptor : Reader Descriptor :=
  Record.read "struct AttributeDescriptor" <|
    Descriptor.mk <$> Record.field "type" Reader.text
      <*> Record.defaulted "values" (Reader.nullable (Reader.listOf readValue)) none
      <*> Record.defaulted "allowundefined" Reader.boolean false

/-- A pair is a list of two. -/
def readEntry : Reader (String × Descriptor)
  | .array [] ending => do
    Reader.atEnd ending
    throw (.invalidLength 0 "a tuple of size 2")
  | .array [name] ending => do
    let _ ← Reader.text name
    Reader.atEnd ending
    throw (.invalidLength 1 "a tuple of size 2")
  | .array (name :: descriptor :: surplus) ending => do
    let name ← Reader.text name
    let descriptor ← readDescriptor descriptor
    Record.surplus surplus ending
    return (name, descriptor)
  | doc => doc.unexpected "a tuple of size 2"

/-- Reads a table from its text. -/
def AuthoredTable.read (text : String) : Except TableError AuthoredTable :=
  (Json.readText (Reader.listOf readEntry) text).mapError .malformed

end ParseView.Aria
