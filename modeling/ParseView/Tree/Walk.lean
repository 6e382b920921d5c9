import ParseView.Tree.Basic

/-!
# Walking a tree

Nodes are visited before the nodes below them, in the order of their fields. Nodes inside lists and
plain objects belong to the node around these.
-/

namespace ParseView.Tree

mutual

/-- The nodes of a value, each before those below it. -/
def Value.nodes : Value → List Node
  | .null | .bool _ | .number _ | .string _ => []
  | .array items => Value.nodesOfList items
  | .object fields => Value.nodesOfFields fields
  | .node head fields => ⟨head, fields⟩ :: Value.nodesOfFields fields

def Value.nodesOfList : List Value → List Node
  | [] => []
  | value :: rest => Value.nodes value ++ Value.nodesOfList rest

def Value.nodesOfFields : List (String × Value) → List Node
  | [] => []
  | (_, value) :: rest => Value.nodes value ++ Value.nodesOfFields rest

end

/-- The node and every node below it. -/
def Node.walk (node : Node) : List Node := (Value.node node.head node.fields).nodes

def Node.descendantsOfKind (node : Node) (kind : String) : List Node :=
  node.walk.filter (·.kind = kind)

/-- A step into a value: a field by its name or an item by its place. -/
inductive Step where
  | field (name : String)
  | item (index : Nat)
deriving DecidableEq, Repr

def Value.step? : Step → Value → Option Value
  | .field name, .node _ fields => Fields.get? name fields
  | .field name, .object fields => Fields.get? name fields
  | .item index, .array items => items[index]?
  | _, _ => none

/-- What a path leads to. -/
def Value.path? (value : Value) (path : List Step) : Option Value :=
  path.foldlM (fun value step => value.step? step) value

/-- What a path leads to from a node; its first step is a field. -/
def Node.path? (node : Node) (path : List Step) : Option Value :=
  match path with
  | .field name :: rest => (node.get? name).bind (·.path? rest)
  | _ => none

end ParseView.Tree
