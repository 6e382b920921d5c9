import ParseView.Aria.Check
import ParseView.Proofs.TreePlaces

/-!
# Each attribute is checked by itself

`Offends` says, without the steps of the check, which nodes are to be told and why, and
`Reports` what is told of a row of nodes: one warning for each that offends, in their
order, and none for the others. The check tells exactly that of the nodes of a walk.

What is told of a node depends on its fields `name` and `value`, and on two offsets, which
no field that holds a node can be. So a part of a tree that does not lie below the name or
the value of an attribute can be exchanged, and of all warnings only its own change.
-/

namespace ParseView.Aria

open ParseView.Tree (Head Value Node Place Gap)

def attributeKind : String := "JSXAttribute"

/-- The fields of an attribute whose nodes decide what is told of it. -/
def attributeParts : List String := ["name", "value"]

/-! ## What is told of a node -/

/-- A node that deserves a warning: an attribute with a simple name, which is that of a
rule in small letters, and a known value, true where none stands, that is set and that
the rule does not accept. -/
structure Offends (node : Node) (name : String) (rule : Rule) (value : AttributeValue) :
    Prop where
  isAttribute : node.kind = attributeKind
  isNamed : ∃ child text, node.child? "name" = some child ∧ child.kind = "JSXIdentifier" ∧
    child.get? "name" = some (.string text) ∧ name = String.ofList (Text.lowercase text.toList)
  isListed : (name, rule) ∈ rules
  isKnown : match node.child? "value" with
    | none => value = .boolean true
    | some child => staticValue child = some value
  isSet : value ≠ .undefined
  isRefused : rule.accepts value = false

/-- One warning for each node of a row that offends, in their order. -/
inductive Reports : List Node → List Diagnostic → Prop
  | nil : Reports [] []
  | told {node : Node} {nodes : List Node} {warnings : List Diagnostic} {name : String}
      {rule : Rule} {value : AttributeValue} :
      Offends node name rule value → Reports nodes warnings →
      Reports (node :: nodes)
        ({ severity := .warning
           message := rule.expectation name
           labels := [⟨none, node.start?.getD 0, node.stop?.getD 0⟩]
           code := some "jsx-a11y/aria-proptypes" } :: warnings)
  | passed {node : Node} {nodes : List Node} {warnings : List Diagnostic} :
      (∀ name rule value, ¬ Offends node name rule value) → Reports nodes warnings →
      Reports (node :: nodes) warnings

/-- No attribute is listed twice. -/
theorem nodup_names : (rules.map (·.1)).Nodup := by
  decide +kernel

theorem rule?_eq_some_iff {name : String} {rule : Rule} :
    rule? name = some rule ↔ (name, rule) ∈ rules := by
  rw [rule?, List.lookup_eq_some_iff]
  constructor
  · rintro ⟨before, behind, hrules, -⟩
    simp [hrules]
  · intro h
    obtain ⟨before, behind, hrules⟩ := List.append_of_mem h
    refine ⟨before, behind, hrules, fun entry hm => ?_⟩
    have hnodup := nodup_names
    rw [hrules, List.map_append, List.nodup_append] at hnodup
    have hne := hnodup.2.2 _ (List.mem_map_of_mem hm) name (by simp)
    simpa [bne_iff_ne] using hne.symm

section Node

variable {node : Node} {name : String} {rule : Rule} {value : AttributeValue}
  {told : Diagnostic}

theorem attributeName?_eq_some_iff :
    attributeName? node = some name ↔
      ∃ child text, node.child? "name" = some child ∧ child.kind = "JSXIdentifier" ∧
        child.get? "name" = some (.string text) ∧
        name = String.ofList (Text.lowercase text.toList) := by
  have hstring (child : Node) (text : String) :
      stringField? "name" child.fields = some text ↔
        child.get? "name" = some (.string text) := by
    rw [stringField?, Tree.Node.get?]
    cases Fields.get? "name" child.fields with
    | none => simp
    | some value => cases value <;> simp [Value.string?]
  simp only [attributeName?, Option.bind_eq_bind, Option.bind_eq_some_iff]
  constructor
  · rintro ⟨child, hchild, h⟩
    obtain ⟨hkind, h⟩ := Option.ite_none_right_eq_some.mp h
    obtain ⟨text, htext, hname⟩ := Option.bind_eq_some_iff.mp h
    exact ⟨child, text, hchild, hkind, (hstring child text).mp htext,
      (Option.some.inj hname).symm⟩
  · rintro ⟨child, text, hchild, hkind, htext, rfl⟩
    refine ⟨child, hchild, ?_⟩
    rw [if_pos hkind, (hstring child text).mpr htext]
    rfl

theorem attributeValue?_eq_some_iff :
    attributeValue? node = some value ↔
      match node.child? "value" with
      | none => value = .boolean true
      | some child => staticValue child = some value := by
  rw [attributeValue?]
  cases node.child? "value" with
  | none => simp [eq_comm]
  | some child => rfl

/-- The steps of the check tell the nodes that offend and no others. -/
theorem checkNode_eq_some_iff :
    checkNode node = some told ↔
      ∃ name rule value, Offends node name rule value ∧ told = warning node name rule := by
  constructor
  · intro h
    rw [checkNode] at h
    split at h
    · exact nomatch h
    · next hkind =>
      simp only [Option.bind_eq_bind, Option.bind_eq_some_iff] at h
      obtain ⟨name, hname, rule, hrule, value, hvalue, h⟩ := h
      split at h
      · exact nomatch h
      · next hbad =>
        obtain ⟨hset, hrefused⟩ := not_or.mp hbad
        refine ⟨name, rule, value, ?_, (Option.some.inj h).symm⟩
        exact { isAttribute := Decidable.not_not.mp hkind
                isNamed := attributeName?_eq_some_iff.mp hname
                isListed := rule?_eq_some_iff.mp hrule
                isKnown := attributeValue?_eq_some_iff.mp hvalue
                isSet := hset
                isRefused := Bool.eq_false_iff.mpr hrefused }
  · rintro ⟨name, rule, value, h, rfl⟩
    have hbad : ¬ (value = .undefined ∨ rule.accepts value = true) :=
      not_or.mpr ⟨h.isSet, Bool.eq_false_iff.mp h.isRefused⟩
    have hkind : ¬ node.kind ≠ "JSXAttribute" := Decidable.not_not.mpr h.isAttribute
    rw [checkNode, if_neg hkind, attributeName?_eq_some_iff.mpr h.isNamed]
    simp only [Option.bind_eq_bind, Option.bind_some, rule?_eq_some_iff.mpr h.isListed,
      attributeValue?_eq_some_iff.mpr h.isKnown, if_neg hbad]

theorem checkNode_eq_none_iff :
    checkNode node = none ↔ ∀ name rule value, ¬ Offends node name rule value := by
  rw [Option.eq_none_iff_forall_ne_some]
  constructor
  · intro h name rule value hoffends
    exact h _ (checkNode_eq_some_iff.mpr ⟨name, rule, value, hoffends, rfl⟩)
  · intro h told htold
    obtain ⟨name, rule, value, hoffends, -⟩ := checkNode_eq_some_iff.mp htold
    exact h name rule value hoffends

end Node

theorem reports_filterMap (nodes : List Node) : Reports nodes (nodes.filterMap checkNode) := by
  induction nodes with
  | nil => exact .nil
  | cons node rest ih =>
      cases hnode : checkNode node with
      | none =>
          rw [List.filterMap_cons_none hnode]
          exact .passed (checkNode_eq_none_iff.mp hnode) ih
      | some told =>
          obtain ⟨name, rule, value, hoffends, rfl⟩ := checkNode_eq_some_iff.mp hnode
          rw [List.filterMap_cons_some hnode]
          exact .told hoffends ih

/-- What is told of a row of nodes is settled by the nodes. -/
theorem Reports.eq_filterMap {nodes : List Node} {warnings : List Diagnostic}
    (h : Reports nodes warnings) : warnings = nodes.filterMap checkNode := by
  induction h with
  | nil => rfl
  | @told node nodes warnings name rule value hoffends _ ih =>
      have hnode := checkNode_eq_some_iff.mpr ⟨name, rule, value, hoffends, rfl⟩
      rw [List.filterMap_cons_some hnode, ← ih]
      rfl
  | passed hnone _ ih => rw [List.filterMap_cons_none (checkNode_eq_none_iff.mpr hnone), ih]

/-! ## Exchanging a part of a tree -/

section Exchange

variable {head : Head} {name : String}

theorem filterMap_checkNode_cons (node : Node) (nodes : List Node) :
    (node :: nodes).filterMap checkNode =
      (checkNode node).toList ++ nodes.filterMap checkNode := by
  cases h : checkNode node <;> simp [h]

theorem checkNode_of_kind_ne {node : Node} (h : node.kind ≠ attributeKind) :
    checkNode node = none :=
  checkNode_eq_none_iff.mpr fun _ _ _ hoffends => h hoffends.isAttribute

/-- The warning for a node around a free place does not depend on what stands there. -/
theorem checkNode_fill (h : Node.kind ⟨head, []⟩ = attributeKind → name ∉ attributeParts)
    (gap : Gap) (before behind : List (String × Value)) (first second : Node) :
    checkNode ⟨head, before ++ (name, gap.fill first) :: behind⟩ =
      checkNode ⟨head, before ++ (name, gap.fill second) :: behind⟩ := by
  have hkind (fields : List (String × Value)) :
      Node.kind ⟨head, fields⟩ = Node.kind ⟨head, []⟩ := rfl
  by_cases ha : Node.kind ⟨head, []⟩ = attributeKind
  · have hnot := h ha
    simp only [attributeParts, List.mem_cons, List.not_mem_nil, or_false, not_or] at hnot
    obtain ⟨hname, hvalue⟩ := hnot
    have hfields (fields : List (String × Value)) (s : String) :
        Node.get? ⟨head, fields⟩ s = Fields.get? s fields := rfl
    simp only [checkNode, attributeName?, attributeValue?, Tree.Node.child?, hfields, hkind,
      Gap.get?_fill_of_ne hname first second, Gap.get?_fill_of_ne hvalue first second,
      warning, Tree.Node.start?, Tree.Node.stop?, Gap.offset?_fill head first second]
  · rw [checkNode_of_kind_ne (by rwa [hkind]), checkNode_of_kind_ne (by rwa [hkind])]

end Exchange

mutual

theorem check_fill_of_place (place : Place) (h : place.Avoids attributeKind attributeParts) :
    ∃ before behind, ∀ node, check (place.fill node) = before ++ check node ++ behind := by
  match place with
  | .root => exact ⟨[], [], fun node => by simp [Place.fill]⟩
  | .field head fields name inside rest =>
      obtain ⟨hfree, hinside⟩ := h
      obtain ⟨before, behind, hcheck⟩ := check_fill_of_gap inside hinside
      -- The warning for the node itself is the same for all nodes inside it.
      let blank : Node := ⟨.element "", []⟩
      refine ⟨(checkNode ((Place.field head fields name inside rest).fill blank)).toList
          ++ ((Value.nodesOfFields fields).filterMap checkNode ++ before),
        behind ++ (Value.nodesOfFields rest).filterMap checkNode, fun node => ?_⟩
      have hself := checkNode_fill hfree inside fields rest blank node
      rw [check, Place.walk_field, filterMap_checkNode_cons, List.filterMap_append,
        List.filterMap_append, hcheck]
      simp only [Place.fill, hself, List.append_assoc]

theorem check_fill_of_gap (gap : Gap) (h : gap.Avoids attributeKind attributeParts) :
    ∃ before behind, ∀ node,
      (gap.fill node).nodes.filterMap checkNode = before ++ check node ++ behind := by
  match gap with
  | .node place =>
      obtain ⟨before, behind, hcheck⟩ := check_fill_of_place place h
      refine ⟨before, behind, fun node => ?_⟩
      rw [Gap.nodes_node, ← hcheck, check]
  | .item items inside rest =>
      obtain ⟨before, behind, hcheck⟩ := check_fill_of_gap inside h
      refine ⟨(Value.nodesOfList items).filterMap checkNode ++ before,
        behind ++ (Value.nodesOfList rest).filterMap checkNode, fun node => ?_⟩
      rw [Gap.nodes_item, List.filterMap_append, List.filterMap_append, hcheck]
      simp only [List.append_assoc]
  | .member fields name inside rest =>
      obtain ⟨before, behind, hcheck⟩ := check_fill_of_gap inside h
      refine ⟨(Value.nodesOfFields fields).filterMap checkNode ++ before,
        behind ++ (Value.nodesOfFields rest).filterMap checkNode, fun node => ?_⟩
      rw [Gap.nodes_member, List.filterMap_append, List.filterMap_append, hcheck]
      simp only [List.append_assoc]

end

/-- The check tells of a tree, in the order of its nodes, one warning for each node that
offends and nothing else. Every node stands at a place, and if that does not lie below
the name or the value of an attribute, the warnings are those before the node's own, its
own and those behind it, and with another node in its place only its own are others. -/
theorem check_exact_and_local (program : Node) :
    (∀ warnings, Reports program.walk warnings ↔ warnings = check program) ∧
    (∀ node, node ∈ program.walk ↔ ∃ place : Place, place.fill node = program) ∧
    ∀ (place : Place) (node : Node), place.fill node = program →
      place.Avoids attributeKind attributeParts →
      ∃ before behind, check program = before ++ check node ++ behind ∧
        ∀ other, check (place.fill other) = before ++ check other ++ behind := by
  refine ⟨fun warnings => ⟨fun h => h.eq_filterMap, ?_⟩, fun node => Tree.Node.mem_walk_iff, ?_⟩
  · rintro rfl
    exact reports_filterMap program.walk
  · rintro place node rfl hfree
    obtain ⟨before, behind, hcheck⟩ := check_fill_of_place place hfree
    exact ⟨before, behind, hcheck node, hcheck⟩

/-- An attribute in a plain object of a list, which takes no text. -/
example : (check ⟨.element "Program", [("body", .array [.bool true, .object [("it",
    .node (.element "JSXAttribute") [
      ("name", .node (.element "JSXIdentifier") [("name", .string "ARIA-hidden")]),
      ("value", .node (.literal ⟨.string "yes", none, none, none⟩) [])])]])]⟩).map
        Diagnostic.message = ["The value for aria-hidden must be a boolean."] := by
  decide +kernel

end ParseView.Aria
