import Mathlib.Data.List.Forall2
import ParseView.Proofs.BraceText
import ParseView.Proofs.TreeReencoding

/-!
# A walk goes by the braces

The nodes of a tree are the objects of its text that name their kind. A walk goes over
the nodes of the tree, and the text is written by a recursion of its own, which puts the
parts of a literal's value behind its other fields. Both come to the nodes in the same
order (`Rebuilds.writtenAt`): plain data and plain objects add no node, and of the parts
of a literal only the source of a regular expression is an object, which names no kind.

The kinds that a tree has and those that its text names agree because the tree was
rebuilt from a text; nothing else is used of `Rebuilds`.
-/

namespace ParseView.Tree

/-- The node is written at this brace: it is encoded as the object, which names its kind,
and from the brace on the text is that of the node. -/
structure Node.WrittenAt (node : Node) (o : Json.Opening) : Prop where
  object : node.toJson = .object o.members
  kind : o.kind? = some node.kind
  text : o.text = node.text.toList ++ o.behind

theorem Node.WrittenAt.of_object {node : Node} {o : Json.Opening}
    (hobject : node.toJson = .object o.members) (hkind : o.kind? = some node.kind) :
    node.WrittenAt o where
  object := hobject
  kind := hkind
  text := by rw [Json.Opening.text, ← hobject, Json.Value.write_eq_text_append, Node.text]

end ParseView.Tree

namespace ParseView.Json

/-! ## Reading at a brace -/

/-- Only doubles need to be asked whether they are read back. -/
theorem Value.scans_of_readsBack {v : Value}
    (h : ∀ x, .double x ∈ v.numerals → Binary64.ReadsBack x) :
    ∀ n ∈ v.numerals, n.Scans := by
  intro n hn
  cases n with
  | whole n => exact Numeral.scans_whole n
  | double x => exact h x hn

/-- Read from its brace on, a text holds the members and goes on with what is behind. -/
def Opening.IsRead (o : Opening) : Prop :=
  (readChars o.text).root.value? = some (.object o.members) ∧
    (readChars o.text).trailing = o.behind

mutual

/-- Every object of a value is read from its brace on. -/
theorem Value.isRead_of_mem_openings (v : Value) (hn : ∀ n ∈ v.numerals, n.Scans)
    (hd : v.DistinctNames) {rest : List Char} (hr : EndsNumber rest) :
    ∀ o ∈ v.openings rest, o.IsRead := by
  match v with
  | .null | .bool _ | .number _ | .string _ => exact nofun
  | .array items => exact isRead_of_mem_openingsOfItems items hn hd rest
  | .object members =>
      refine List.forall_mem_cons.mpr ⟨?_, isRead_of_mem_openingsOfFields members hn hd.2 rest⟩
      rw [Opening.IsRead, Opening.text, readChars_write _ hn hr]
      exact ⟨Value.value?_doc hd rest, rfl⟩

theorem Value.isRead_of_mem_openingsOfItems (items : List Value)
    (hn : ∀ n ∈ numeralsOfItems items, n.Scans) (hd : DistinctNamesOfItems items)
    (rest : List Char) : ∀ o ∈ openingsOfItems items rest, o.IsRead := by
  match items with
  | [] => exact nofun
  | item :: items =>
      obtain ⟨hitem, hitems⟩ := List.forall_mem_append.mp hn
      exact List.forall_mem_append.mpr
        ⟨item.isRead_of_mem_openings hitem hd.1 (endsNumber_writeItems items rest),
          isRead_of_mem_openingsOfItems items hitems hd.2 rest⟩

theorem Value.isRead_of_mem_openingsOfFields (fields : List (String × Value))
    (hn : ∀ n ∈ numeralsOfFields fields, n.Scans) (hd : DistinctNamesOfFields fields)
    (rest : List Char) : ∀ o ∈ openingsOfFields fields rest, o.IsRead := by
  match fields with
  | [] => exact nofun
  | (name, value) :: fields =>
      obtain ⟨hvalue, hfields⟩ := List.forall_mem_append.mp hn
      exact List.forall_mem_append.mpr
        ⟨value.isRead_of_mem_openings hvalue hd.1 (endsNumber_writeFields fields rest),
          isRead_of_mem_openingsOfFields fields hfields hd.2 rest⟩

end

end ParseView.Json

namespace ParseView.Tree

/-! ## Kinds of objects -/

section Kinds

variable {members : Fields Json.Value} {fields : Fields Value}

theorem Value.get?_fieldsToJson (name : String) (fields : Fields Value) :
    Fields.get? name (fieldsToJson fields) = (Fields.get? name fields).map toJson := by
  induction fields with
  | nil => rfl
  | cons field fields ih =>
      obtain ⟨key, value⟩ := field
      rw [fieldsToJson, Fields.get?, Fields.get?, ih]
      split <;> rfl

theorem kind?_of_unnamed (h : RebuildsFields members fields)
    (unnamed : ∀ kind, Fields.get? "type" members ≠ some (.string kind)) (rest : List Char) :
    (⟨Value.fieldsToJson fields, rest⟩ : Json.Opening).kind? = none := by
  rw [Json.Opening.kind?, Value.get?_fieldsToJson]
  rcases h.get? "type" with ⟨-, hf⟩ | ⟨member, value, hm, hf, hv⟩
  · rw [hf]
    rfl
  · rw [hf]
    cases hv with
    | string kind => exact absurd hm (unnamed kind)
    | _ => rfl

theorem kind?_of_named {kind : String} (h : Fields.get? "type" fields = some (.string kind))
    (more : Fields Json.Value) (rest : List Char) :
    (⟨Value.fieldsToJson fields ++ more, rest⟩ : Json.Opening).kind? = some kind := by
  rw [Json.Opening.kind?, Fields.get?_append, Value.get?_fieldsToJson, h]
  rfl

end Kinds

/-! ## The parts of a literal -/

theorem exists_field_of_mem_openings {fields : Fields Json.Value} {rest : List Char}
    {o : Json.Opening} (h : o ∈ Json.Value.openingsOfFields fields rest) :
    ∃ (field : String × Json.Value) (behind : List Char),
      field ∈ fields ∧ o ∈ field.2.openings behind := by
  induction fields with
  | nil => exact nomatch h
  | cons field fields ih =>
      rcases List.mem_append.mp h with h | h
      · exact ⟨field, _, List.mem_cons_self, h⟩
      · obtain ⟨other, behind, hother, ho⟩ := ih h
        exact ⟨other, behind, List.mem_cons_of_mem _ hother, ho⟩

/-- No part of a literal names a kind. -/
theorem Literal.kind?_of_mem_openings (l : Literal) {rest : List Char} {o : Json.Opening}
    (h : o ∈ Json.Value.openingsOfFields l.fields rest) : o.kind? = none := by
  obtain ⟨⟨name, value⟩, behind, hfield, ho⟩ := exists_field_of_mem_openings h
  simp only [Literal.fields, List.mem_cons, List.mem_append, Option.mem_toList,
    Option.map_eq_some_iff, Prod.mk.injEq] at hfield
  rcases hfield with ⟨-, rfl⟩ | ((⟨s, -, -, rfl⟩ | ⟨s, -, -, rfl⟩) | ⟨source, -, -, rfl⟩)
  · cases hvalue : l.value <;> rw [hvalue] at ho <;> exact absurd ho List.not_mem_nil
  · exact absurd ho List.not_mem_nil
  · exact absurd ho List.not_mem_nil
  · obtain rfl := List.mem_singleton.mp ho
    rfl

/-! ## The order of a walk -/

/-- The objects that name a kind. -/
def kinded (openings : List Json.Opening) : List Json.Opening :=
  openings.filter fun o => o.kind?.isSome

mutual

/-- The nodes of a value are written at the braces of the objects that name a kind. -/
theorem Rebuilds.writtenAt {source : Json.Value} {value : Value} (h : Rebuilds source value)
    (rest : List Char) :
    List.Forall₂ Node.WrittenAt value.nodes (kinded (value.toJson.openings rest)) := by
  match value, h with
  | .null, _ | .bool _, _ | .number _, _ | .string _, _ => exact .nil
  | .array values, .array h => exact h.writtenAt rest
  | .object fields, .object distinct h unnamed =>
      have hrest := h.writtenAt [] rest nofun
      rw [List.append_nil] at hrest
      rw [Value.nodes, Value.toJson, Json.Value.openings, kinded, List.filter_cons_of_neg]
      · exact hrest
      · simp [kind?_of_unnamed h unnamed]
  | .node (.element kind) fields, .element distinct h named other =>
      have hkind := kind?_of_named (get?_type_of_named h named) [] rest
      have hrest := h.writtenAt [] rest nofun
      rw [List.append_nil] at hkind hrest
      rw [Value.nodes, Value.toJson, Json.Value.openings, kinded, List.filter_cons_of_pos]
      · exact .cons (.of_object rfl hkind) hrest
      · simp [hkind]
  | .node (.literal l) fields, .literal distinct h named repaired =>
      have htype : Fields.get? "type" fields = some (.string Literal.kind) :=
        get?_type_of_named h (by rw [get?_type_otherFields, named])
      have hkind := kind?_of_named htype l.fields rest
      rw [Value.nodes, Value.toJson, Json.Value.openings, kinded, List.filter_cons_of_pos]
      · exact .cons (.of_object rfl hkind)
          (h.writtenAt l.fields rest fun o ho => l.kind?_of_mem_openings ho)
      · simp [hkind]

theorem RebuildsItems.writtenAt {items : List Json.Value} {values : List Value}
    (h : RebuildsItems items values) (rest : List Char) :
    List.Forall₂ Node.WrittenAt (Value.nodesOfList values)
      (kinded (Json.Value.openingsOfItems (Value.listToJson values) rest)) := by
  match values, h with
  | [], _ => exact .nil
  | value :: values, .cons head tail =>
      rw [Value.nodesOfList, Value.listToJson, Json.Value.openingsOfItems, kinded,
        List.filter_append]
      exact List.rel_append (head.writtenAt _) (tail.writtenAt rest)

/-- Behind the fields there may be more, so long as there are no nodes in it. -/
theorem RebuildsFields.writtenAt {members : Fields Json.Value} {fields : Fields Value}
    (h : RebuildsFields members fields) (more : Fields Json.Value) (rest : List Char)
    (hmore : ∀ o ∈ Json.Value.openingsOfFields more rest, o.kind? = none) :
    List.Forall₂ Node.WrittenAt (Value.nodesOfFields fields)
      (kinded (Json.Value.openingsOfFields (Value.fieldsToJson fields ++ more) rest)) := by
  match fields, h with
  | [], _ =>
      have hnone : kinded (Json.Value.openingsOfFields more rest) = [] :=
        List.filter_eq_nil_iff.mpr fun o ho => by simp [hmore o ho]
      rw [Value.fieldsToJson, List.nil_append, hnone]
      exact .nil
  | (name, value) :: fields, .cons head tail =>
      rw [Value.nodesOfFields, Value.fieldsToJson, List.cons_append,
        Json.Value.openingsOfFields, kinded, List.filter_append]
      exact List.rel_append (head.writtenAt _) (tail.writtenAt more rest hmore)

end

/-- A walk visits the nodes one by one in the order of the text. At the braces of the
text that is written of a program, its objects are written; those that name a kind are
the nodes of a walk, in this order, and those that name one and the same kind are its
descendants of this kind. What stands at a brace is also what is read there, if the
doubles are read back as they are written. -/
theorem walk_writtenAt {text : String} {program : Node} (h : decode text = .ok program) :
    Json.braces program.text.toList = (program.toJson.openings []).map Json.Opening.text ∧
    List.Forall₂ Node.WrittenAt program.walk
      ((program.toJson.openings []).filter fun o => o.kind?.isSome) ∧
    (∀ kind, List.Forall₂ Node.WrittenAt (program.descendantsOfKind kind)
      ((program.toJson.openings []).filter fun o => o.kind? = some kind)) ∧
    ((∀ x, .double x ∈ program.toJson.numerals → Binary64.ReadsBack x) →
      ∀ o ∈ program.toJson.openings [], o.IsRead) := by
  obtain ⟨source, -, hr⟩ := rebuilds_of_decode h
  have hwalk : List.Forall₂ Node.WrittenAt program.walk (kinded (program.toJson.openings [])) :=
    hr.writtenAt []
  refine ⟨?_, hwalk, fun kind => ?_, fun hdoubles => ?_⟩
  · have hbraces := program.toJson.braces_write []
    rw [Json.braces, List.append_nil] at hbraces
    rw [Node.text, Json.Value.text, String.toList_ofList, hbraces]
  · have hfilter := List.rel_filter (p := fun node : Node => decide (node.kind = kind))
      (q := fun o : Json.Opening => decide (o.kind? = some kind))
      (fun {node o} (hat : node.WrittenAt o) => by simp [hat.kind]) hwalk
    have hkinds : ∀ o : Json.Opening,
        (decide (o.kind? = some kind) && o.kind?.isSome) = decide (o.kind? = some kind) := by
      intro o
      by_cases ho : o.kind? = some kind <;> simp [ho]
    rw [kinded, List.filter_filter] at hfilter
    simp only [hkinds] at hfilter
    exact hfilter
  · exact program.toJson.isRead_of_mem_openings
      (Json.Value.scans_of_readsBack hdoubles) hr.distinctNames .nil

/-- A program with braces and quotes in its strings, a plain object whose `type` is a
number, and a node between the parts of a literal. -/
def mixedProgram : Json.Value :=
  .object [("type", .string "Program"),
    ("note", .object [("type", .number (.ofNat 3)), ("text", .string "\"\x7b")]),
    ("body", .array [.object [("type", .string "Literal"),
      ("regex", .object [("pattern", .string "\x7b"), ("flags", .string "v")]),
      ("inner", .object [("type", .string "Inner")])]])]

def mixedProgramNode : Node :=
  ⟨.element "Program", [("type", .string "Program"),
    ("note", .object [("type", .number (.ofNat 3)), ("text", .string "\"\x7b")]),
    ("body", .array [.node (.literal ⟨.null, none, none, some ⟨"\x7b", "v"⟩⟩)
      [("type", .string "Literal"),
        ("inner", .node (.element "Inner") [("type", .string "Inner")])]])]⟩

/-- Of five braces, three are those of nodes. -/
theorem walk_writtenAt_mixedProgram :
    decode mixedProgram.text = .ok mixedProgramNode ∧
      (Json.braces mixedProgramNode.text.toList).length = 5 ∧
      (mixedProgramNode.toJson.openings []).map (·.kind?) =
        [some "Program", none, some "Literal", some "Inner", none] ∧
      List.Forall₂ Node.WrittenAt mixedProgramNode.walk
        (kinded (mixedProgramNode.toJson.openings [])) := by
  have hdecode : decode mixedProgram.text = .ok mixedProgramNode := by cbv
  obtain ⟨hbraces, hwalk, -, -⟩ := walk_writtenAt hdecode
  refine ⟨hdecode, ?_, rfl, hwalk⟩
  rw [hbraces, List.length_map]
  rfl

end ParseView.Tree
