import ParseView.Json.Writer
import ParseView.Tree.Basic

/-!
# From a tree to a text

A literal is written with its other fields first, then its value, then the texts it was rebuilt
from. A big integer and a regular expression are written as null beside their source.
-/

namespace ParseView.Tree

def LiteralValue.toJson : LiteralValue → Json.Value
  | .null | .bigint _ | .regexp _ => .null
  | .boolean b => .bool b
  | .number x => .number (.double x)
  | .string s => .string s

/-- The fields that a literal's value is written as. -/
def Literal.fields (l : Literal) : Fields Json.Value :=
  ("value", l.value.toJson)
    :: ((l.raw.map fun s => ("raw", Json.Value.string s)).toList
      ++ (l.bigint.map fun s => ("bigint", Json.Value.string s)).toList
      ++ (l.regex.map fun source => ("regex",
          Json.Value.object [("pattern", .string source.pattern), ("flags", .string source.flags)])
        ).toList)

mutual

def Value.toJson : Value → Json.Value
  | .null => .null
  | .bool b => .bool b
  | .number n => .number n
  | .string s => .string s
  | .array items => .array (Value.listToJson items)
  | .object fields => .object (Value.fieldsToJson fields)
  | .node (.element _) fields => .object (Value.fieldsToJson fields)
  | .node (.literal l) fields => .object (Value.fieldsToJson fields ++ l.fields)

def Value.listToJson : List Value → List Json.Value
  | [] => []
  | value :: rest => Value.toJson value :: Value.listToJson rest

def Value.fieldsToJson : List (String × Value) → List (String × Json.Value)
  | [] => []
  | (name, value) :: rest => (name, Value.toJson value) :: Value.fieldsToJson rest

end

def Node.toJson (node : Node) : Json.Value := (Value.node node.head node.fields).toJson

/-- The interchange text of a tree. -/
def Node.text (node : Node) : String := node.toJson.text

end ParseView.Tree
