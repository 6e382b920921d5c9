import ParseView.Tree.Walk

/-!
# Places in a tree

A place is a tree with one node taken out, told from the outside in: around the node
stand fields of nodes, items of lists and members of plain objects. Filling a place puts
a node there. Every node that a walk visits stands at a place (`Node.mem_walk_iff`), so
what holds of all places holds of all nodes of a tree.
-/

namespace ParseView.Tree

mutual

/-- A place for a node in a node. -/
inductive Place where
  | root
  | field (head : Head) (before : List (String × Value)) (name : String) (inside : Gap)
    (behind : List (String × Value))

/-- A place for a node in a value. -/
inductive Gap where
  | node (place : Place)
  | item (before : List Value) (inside : Gap) (behind : List Value)
  | member (before : List (String × Value)) (name : String) (inside : Gap)
    (behind : List (String × Value))

end

mutual

def Place.fill : Place → Node → Node
  | .root, node => node
  | .field head before name inside behind, node =>
    ⟨head, before ++ (name, inside.fill node) :: behind⟩

def Gap.fill : Gap → Node → Value
  | .node place, node => .node (place.fill node).head (place.fill node).fields
  | .item before inside behind, node => .array (before ++ inside.fill node :: behind)
  | .member before name inside behind, node =>
    .object (before ++ (name, inside.fill node) :: behind)

end

mutual

/-- No node of the kind has the place below one of these fields. -/
def Place.Avoids (kind : String) (names : List String) : Place → Prop
  | .root => True
  | .field head _ name inside _ =>
    (Node.kind ⟨head, []⟩ = kind → name ∉ names) ∧ inside.Avoids kind names

def Gap.Avoids (kind : String) (names : List String) : Gap → Prop
  | .node place => place.Avoids kind names
  | .item _ inside _ | .member _ _ inside _ => inside.Avoids kind names

end

/-! ## Fields around a place -/

section Fields

variable {name other : String} {gap : Gap} {before behind : List (String × Value)}

/-- Whatever is put into a gap, the value around it is no number. -/
theorem Gap.natural?_fill (gap : Gap) (node : Node) : (gap.fill node).natural? = none := by
  cases gap <;> simp [Gap.fill, Value.natural?]

theorem Gap.get?_fill_of_ne (h : name ≠ other) (first second : Node) :
    Fields.get? other (before ++ (name, gap.fill first) :: behind) =
      Fields.get? other (before ++ (name, gap.fill second) :: behind) := by
  simp [Fields.get?_append, Fields.get?, h]

/-- No offset of a node depends on the nodes in its fields. -/
theorem Gap.offset?_fill (head : Head) (first second : Node) :
    (Node.mk head (before ++ (name, gap.fill first) :: behind)).offset? other =
      (Node.mk head (before ++ (name, gap.fill second) :: behind)).offset? other := by
  by_cases h : name = other
  · subst h
    cases hbefore : Fields.get? name before with
    | some value => simp [Node.offset?, Node.get?, Fields.get?_append, hbefore]
    | none =>
        simp [Node.offset?, Node.get?, Fields.get?_append, hbefore, Fields.get?,
          Gap.natural?_fill]
  · simp only [Node.offset?, Node.get?, Gap.get?_fill_of_ne h first second]

end Fields

/-! ## Walking past a place -/

theorem Value.nodesOfList_append (first second : List Value) :
    nodesOfList (first ++ second) = nodesOfList first ++ nodesOfList second := by
  induction first with
  | nil => rfl
  | cons value rest ih => simp [nodesOfList, ih]

theorem Value.nodesOfFields_append (first second : List (String × Value)) :
    nodesOfFields (first ++ second) = nodesOfFields first ++ nodesOfFields second := by
  induction first with
  | nil => rfl
  | cons field rest ih => simp [nodesOfFields, ih]

/-- A node is visited before its fields, and these in their order. -/
theorem Place.walk_field (head : Head) (before : List (String × Value)) (name : String)
    (inside : Gap) (behind : List (String × Value)) (node : Node) :
    ((Place.field head before name inside behind).fill node).walk =
      (Place.field head before name inside behind).fill node ::
        (Value.nodesOfFields before ++ (inside.fill node).nodes ++ Value.nodesOfFields behind) := by
  simp [Place.fill, Node.walk, Value.nodes, Value.nodesOfFields_append, Value.nodesOfFields]

theorem Gap.nodes_node (place : Place) (node : Node) :
    ((Gap.node place).fill node).nodes = (place.fill node).walk := by
  rw [Gap.fill, Node.walk]

theorem Gap.nodes_item (before : List Value) (inside : Gap) (behind : List Value) (node : Node) :
    ((Gap.item before inside behind).fill node).nodes =
      Value.nodesOfList before ++ (inside.fill node).nodes ++ Value.nodesOfList behind := by
  simp [Gap.fill, Value.nodes, Value.nodesOfList_append, Value.nodesOfList]

theorem Gap.nodes_member (before : List (String × Value)) (name : String) (inside : Gap)
    (behind : List (String × Value)) (node : Node) :
    ((Gap.member before name inside behind).fill node).nodes =
      Value.nodesOfFields before ++ (inside.fill node).nodes ++ Value.nodesOfFields behind := by
  simp [Gap.fill, Value.nodes, Value.nodesOfFields_append, Value.nodesOfFields]

mutual

theorem Place.mem_walk_fill (place : Place) (node : Node) : node ∈ (place.fill node).walk := by
  match place with
  | .root => simp [Place.fill, Node.walk, Value.nodes]
  | .field head before name inside behind =>
      rw [Place.walk_field]
      simp [inside.mem_nodes_fill node]

theorem Gap.mem_nodes_fill (gap : Gap) (node : Node) : node ∈ (gap.fill node).nodes := by
  match gap with
  | .node place =>
      rw [Gap.nodes_node]
      exact place.mem_walk_fill node
  | .item before inside behind =>
      rw [Gap.nodes_item]
      simp [inside.mem_nodes_fill node]
  | .member before name inside behind =>
      rw [Gap.nodes_member]
      simp [inside.mem_nodes_fill node]

end

mutual

theorem Value.exists_gap {value : Value} {node : Node} (h : node ∈ value.nodes) :
    ∃ gap : Gap, gap.fill node = value := by
  match value with
  | .null | .bool _ | .number _ | .string _ => simp [Value.nodes] at h
  | .array items =>
      obtain ⟨before, gap, behind, rfl⟩ := Value.exists_gap_of_list (by simpa [nodes] using h)
      exact ⟨.item before gap behind, by rw [Gap.fill]⟩
  | .object fields =>
      obtain ⟨before, name, gap, behind, rfl⟩ :=
        Value.exists_gap_of_fields (by simpa [nodes] using h)
      exact ⟨.member before name gap behind, by rw [Gap.fill]⟩
  | .node head fields =>
      rw [Value.nodes, List.mem_cons] at h
      rcases h with rfl | h
      · exact ⟨.node .root, by rw [Gap.fill, Place.fill]⟩
      · obtain ⟨before, name, gap, behind, rfl⟩ := Value.exists_gap_of_fields h
        exact ⟨.node (.field head before name gap behind), by rw [Gap.fill, Place.fill]⟩

theorem Value.exists_gap_of_list {items : List Value} {node : Node}
    (h : node ∈ nodesOfList items) :
    ∃ (before : List Value) (gap : Gap) (behind : List Value),
      before ++ gap.fill node :: behind = items := by
  match items with
  | [] => simp [nodesOfList] at h
  | item :: rest =>
      rw [nodesOfList, List.mem_append] at h
      rcases h with h | h
      · obtain ⟨gap, rfl⟩ := Value.exists_gap h
        exact ⟨[], gap, rest, rfl⟩
      · obtain ⟨before, gap, behind, rfl⟩ := Value.exists_gap_of_list h
        exact ⟨item :: before, gap, behind, rfl⟩

theorem Value.exists_gap_of_fields {fields : List (String × Value)} {node : Node}
    (h : node ∈ nodesOfFields fields) :
    ∃ (before : List (String × Value)) (name : String) (gap : Gap)
      (behind : List (String × Value)), before ++ (name, gap.fill node) :: behind = fields := by
  match fields with
  | [] => simp [nodesOfFields] at h
  | (name, value) :: rest =>
      rw [nodesOfFields, List.mem_append] at h
      rcases h with h | h
      · obtain ⟨gap, rfl⟩ := Value.exists_gap h
        exact ⟨[], name, gap, rest, rfl⟩
      · obtain ⟨before, name', gap, behind, rfl⟩ := Value.exists_gap_of_fields h
        exact ⟨(name, value) :: before, name', gap, behind, rfl⟩

end

/-- The nodes that a walk visits are those that stand at a place. -/
theorem Node.mem_walk_iff {program node : Node} :
    node ∈ program.walk ↔ ∃ place : Place, place.fill node = program := by
  constructor
  · intro h
    obtain ⟨head, fields⟩ := program
    rw [Node.walk, Value.nodes, List.mem_cons] at h
    rcases h with rfl | h
    · exact ⟨.root, by rw [Place.fill]⟩
    · obtain ⟨before, name, gap, behind, rfl⟩ := Value.exists_gap_of_fields h
      exact ⟨.field head before name gap behind, by rw [Place.fill]⟩
  · rintro ⟨place, rfl⟩
    exact place.mem_walk_fill node

end ParseView.Tree
