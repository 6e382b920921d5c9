import ParseView.Aria.Constant
import ParseView.Aria.Table
import ParseView.Diagnostic.Basic
import ParseView.Tree.Walk

/-!
# Checking ARIA attributes

Every attribute of an element in a tree is looked at by itself. It is told if it is an ARIA
attribute whose value is known and is none that it takes. A value that is not set is never told.
-/

namespace ParseView.Aria

open ParseView.Tree (Node)

/-- The name of the rule that the diagnostics are for. -/
def ruleCode : String := "jsx-a11y/aria-proptypes"

/-- The name of an attribute in small letters. Names with a namespace are none. -/
def attributeName? (node : Node) : Option String := do
  let name ← node.child? "name"
  if name.kind = "JSXIdentifier" then
    let text ← stringField? "name" name.fields
    return String.ofList (Text.lowercase text.toList)
  else none

/-- The value of an attribute, if it is known. An attribute without a value is true. -/
def attributeValue? (node : Node) : Option AttributeValue :=
  match node.child? "value" with
  | none => some (.boolean true)
  | some value => staticValue value

def warning (node : Node) (name : String) (rule : Rule) : Diagnostic where
  severity := .warning
  message := rule.expectation name
  labels := [⟨none, node.start?.getD 0, node.stop?.getD 0⟩]
  code := some ruleCode

/-- The warning for a node, if it is an attribute that deserves one. -/
def checkNode (node : Node) : Option Diagnostic := do
  if node.kind ≠ "JSXAttribute" then none
  let name ← attributeName? node
  let rule ← rule? name
  let value ← attributeValue? node
  if value = .undefined ∨ rule.accepts value then none else some (warning node name rule)

/-- The warnings for a tree, in the order of its nodes. -/
def check (program : Node) : List Diagnostic := program.walk.filterMap checkNode

end ParseView.Aria
