import ParseView.Json.Doc
import ParseView.Regexp.Compiled

/-!
# Syntax trees

A tree is made of plain data and of nodes, the objects that name their kind. Only literals have a
form of their own: their value is a value of the language they stand for, next to the texts it
was rebuilt from. Every other node keeps its fields as they were read.
-/

namespace ParseView.Tree

/-- The value of a literal. A regular expression that cannot be compiled is null. -/
inductive LiteralValue where
  | null
  | boolean (b : Bool)
  | number (x : Binary64)
  | string (s : String)
  | bigint (n : Nat)
  | regexp (r : Regexp)
deriving DecidableEq, Repr

structure Literal where
  value : LiteralValue
  raw : Option String
  /-- The numeral of a big integer, without its suffix. -/
  bigint : Option String
  regex : Option Regexp.Source
deriving DecidableEq, Repr

/-- The kind of every literal. -/
def Literal.kind : String := "Literal"

/-- What makes an object a node. -/
inductive Head where
  | literal (l : Literal)
  | element (kind : String)
deriving DecidableEq, Repr

inductive Value where
  | null
  | bool (b : Bool)
  | number (n : Json.Numeral)
  | string (s : String)
  | array (items : List Value)
  | object (fields : List (String × Value))
  /-- The fields of an element are all of its fields, those of a literal the ones that its value is
  not made of. -/
  | node (head : Head) (fields : List (String × Value))
deriving Repr, Inhabited

/-- A node of a tree. -/
structure Node where
  head : Head
  fields : Fields Value
deriving Repr

/-- The kinds of data that errors tell apart. -/
inductive Shape where
  | null
  | boolean
  | number
  | string
  | array
  | object
  | node
deriving DecidableEq, Repr

def Shape.text : Shape → String
  | .null => "null"
  | .boolean => "a boolean"
  | .number => "a number"
  | .string => "a string"
  | .array => "an array"
  | .object => "an object"
  | .node => "a node"

namespace Value

def shape : Value → Shape
  | .null => .null
  | .bool _ => .boolean
  | .number _ => .number
  | .string _ => .string
  | .array _ => .array
  | .object _ => .object
  | .node _ _ => .node

def string? : Value → Option String
  | .string s => some s
  | _ => none

def bool? : Value → Option Bool
  | .bool b => some b
  | _ => none

def natural? : Value → Option Nat
  | .number n => n.natural?
  | _ => none

def array? : Value → Option (List Value)
  | .array items => some items
  | _ => none

def object? : Value → Option (Fields Value)
  | .object fields => some fields
  | _ => none

def node? : Value → Option Node
  | .node head fields => some ⟨head, fields⟩
  | _ => none

end Value

namespace Node

def kind (node : Node) : String :=
  match node.head with
  | .literal _ => Literal.kind
  | .element kind => kind

/-- A field of the node; the parts of a literal's value are no fields. -/
def get? (node : Node) (name : String) : Option Value := Fields.get? name node.fields

/-- The node that stands in a field. -/
def child? (node : Node) (name : String) : Option Node := (node.get? name).bind Value.node?

/-- An offset of thirty-two bits. -/
def offset? (node : Node) (name : String) : Option UInt32 := do
  let n ← (← node.get? name).natural?
  if n < 0x100000000 then some (UInt32.ofNat n) else none

def start? (node : Node) : Option UInt32 := node.offset? "start"

def stop? (node : Node) : Option UInt32 := node.offset? "end"

def literal? (node : Node) : Option Literal :=
  match node.head with
  | .literal l => some l
  | .element _ => none

end Node

end ParseView.Tree
