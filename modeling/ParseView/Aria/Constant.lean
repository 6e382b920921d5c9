import ParseView.Aria.Rule
import ParseView.Tree.Basic

/-!
# Constant expressions

Literals, `undefined`, templates and a few operators have values that are known before anything
runs. A text that says true or false counts as that truth value.
-/

namespace ParseView.Aria

open ParseView.Tree (Value Node)

/-- A text as the value of an attribute. -/
def AttributeValue.ofText : String → AttributeValue
  | "true" => .boolean true
  | "false" => .boolean false
  | s => .text s

/-- The value of a literal; null, big integers and regular expressions have none. -/
def literalValue (literal : Tree.Literal) : Option AttributeValue :=
  match literal.value with
  | .boolean b => some (.boolean b)
  | .number x => some (.number x)
  | .string s => some (.ofText s)
  | .null | .bigint _ | .regexp _ => none

/-- A field that is a text. -/
def stringField? (name : String) (fields : Fields Value) : Option String :=
  (Fields.get? name fields).bind Value.string?

def listField? (name : String) (fields : Fields Value) : Option (List Value) :=
  (Fields.get? name fields).bind Value.array?

/-! ## Templates -/

/-- The text of a piece of a template. -/
def pieceText? (piece : Value) : Option String := do
  let node ← piece.node?
  let value ← node.get? "value"
  stringField? "cooked" (← value.object?)

/-- What stands for an identifier between two pieces of a template. -/
def placeholder? (expression : Value) : Option String := do
  let node ← expression.node?
  if node.kind = "Identifier" then
    let name ← stringField? "name" node.fields
    return "$\x7b" ++ name ++ "\x7d"
  else none

/-- The pieces of a template in turn with the expressions between them. -/
def interleave? : List Value → List Value → Option String
  | [], _ => some ""
  | piece :: pieces, [] => do
    let text ← pieceText? piece
    let rest ← interleave? pieces []
    return text ++ rest
  | piece :: pieces, expression :: expressions => do
    let text ← pieceText? piece
    let name ← placeholder? expression
    let rest ← interleave? pieces expressions
    return text ++ name ++ rest

/-- The text of a template in which only identifiers are filled in; they are kept by their names. -/
def templateText? (fields : Fields Value) : Option String := do
  let pieces ← listField? "quasis" fields
  interleave? pieces ((listField? "expressions" fields).getD [])

/-! ## Operators -/

def isTruthy : AttributeValue → Bool
  | .undefined => false
  | .boolean b => b
  | .text s => !s.isEmpty
  | .number x => !x.isZero && !x.isNaN

/-- A whole number of thirty-two bits with sign: what is left of one whose value was first cut to
the range of sixty-four bits. -/
def toInt32 (n : Int) : Int :=
  Int.bmod (max (-0x8000000000000000) (min n 0x7fffffffffffffff)) 0x100000000

/-- The bits of a finite number without its fraction, each of them turned over. -/
def complement (x : Binary64) : Binary64 := .ofInt (-toInt32 x.truncate - 1)

/-- The value of an operator before its operand's value. -/
def unaryValue (operator : String) (operand : AttributeValue) : Option AttributeValue :=
  match operator, operand with
  | "!", operand => some (.boolean (!isTruthy operand))
  | "-", .number x => some (.number x.neg)
  | "+", .number x => some (.number x)
  | "~", .number x => if x.isFinite then some (.number (complement x)) else none
  | _, _ => none

/-! ## Expressions -/

mutual

/-- The value of an expression, if it is known. -/
def expressionValue : Value → Option AttributeValue
  | .node (.literal literal) _ => literalValue literal
  | .node (.element kind) fields =>
    if kind = "Identifier" then
      if stringField? "name" fields = some "undefined" then some .undefined else none
    else if kind = "TemplateLiteral" then (templateText? fields).map .ofText
    else if kind = "UnaryExpression" then do
      let operator ← stringField? "operator" fields
      unaryValue operator (← operandValue fields)
    else none
  | _ => none

/-- The value of the operand among the fields of an operator. -/
def operandValue : List (String × Value) → Option AttributeValue
  | [] => none
  | (name, value) :: rest =>
    if name = "argument" then expressionValue value else operandValue rest

end

/-- The value that stands in an attribute, if it is known: a literal or an expression in braces. -/
def staticValue (node : Node) : Option AttributeValue :=
  match node.head with
  | .literal literal => literalValue literal
  | .element kind =>
    if kind = "JSXExpressionContainer" then
      (Fields.get? "expression" node.fields).bind expressionValue
    else none

end ParseView.Aria
