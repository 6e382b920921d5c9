import ParseView.Proofs.NearestDouble
import ParseView.Proofs.TreeRoundTrip

/-!
# What encoding keeps of a text

Read as plain data, the text that is written of a program holds what the program's own
text held, with one exception, and `Json.Value.reencoded` says which: the objects of
literal kind. They keep their other fields where they stood and have the parts of their
value at the end, of which those that were missing or null are left out and `value` is
always written.

`reencoded` speaks of plain data on both sides and knows nothing of the tree between
them. That it is what encoding writes goes by the tree as it was rebuilt
(`Rebuilds.toJson_eq`), and that this is what the written text holds is the reading of
written values (`Json.Value.value?_doc`).
-/

namespace ParseView.Json

/-! ## A written value is read as it was -/

mutual

theorem Value.value?_doc {v : Value} (h : v.DistinctNames) (rest : List Char) :
    (v.doc rest).value? = some v := by
  match v with
  | .null | .bool _ | .number _ | .string _ => rfl
  | .array items =>
      rw [Value.doc, Doc.value?, Value.values?_docs h rest]
      rfl
  | .object fields =>
      rw [Value.doc, Doc.value?, Value.entries?_memberDocs h.2 rest]
      exact congrArg (fun fields => some (Value.object fields)) (Fields.ofEntries_eq_self h.1)

theorem Value.values?_docs {items : List Value} (h : DistinctNamesOfItems items)
    (rest : List Char) : Doc.values? (docs items rest) = some items := by
  match items with
  | [] => rfl
  | item :: items =>
      simp [docs, Doc.values?, Value.value?_doc h.1, Value.values?_docs h.2]

theorem Value.entries?_memberDocs {fields : List (String × Value)}
    (h : DistinctNamesOfFields fields) (rest : List Char) :
    Doc.entries? (memberDocs fields rest) = some fields := by
  match fields with
  | [] => rfl
  | (name, value) :: fields =>
      simp [memberDocs, Doc.entries?, Except.toOption, Value.value?_doc h.1,
        Value.entries?_memberDocs h.2]

end

/-- The text of a value that repeats no name holds this value. -/
theorem read?_text {v : Value} (h : v.DistinctNames) (hn : ∀ n ∈ v.numerals, n.Scans) :
    read? v.text = some v := by
  have hvalue := v.value?_doc h []
  simp [read?, Document.read_text v hn, Document.trailingFault?, skipBlank, hvalue]

/-! ## What is written of it -/

/-- A number in the place of a literal's value becomes a double. -/
def Value.asDouble : Value → Value
  | .number n => .number (.double n.toBinary64)
  | other => other

/-- Of a regular expression's source the pattern and the flags are kept. -/
def Value.asSource : Value → Value
  | .object source =>
    .object (["pattern", "flags"].filterMap fun part =>
      (Fields.get? part source).map fun value => (part, value))
  | other => other

/-- Is it the kind of literals that an object with these fields names? -/
def namesLiteral (members : Fields Value) : Bool :=
  match Fields.get? "type" members with
  | some (.string kind) => kind = Tree.Literal.kind
  | _ => false

/-- A part of a literal, unless it is missing or null. -/
def givenPart (part : String) (f : Value → Value) (members : Fields Value) : Fields Value :=
  match Fields.get? part members with
  | none | some .null => []
  | some value => [(part, f value)]

/-- The parts of a literal as they are written. -/
def literalTail (members : Fields Value) : Fields Value :=
  ("value", ((Fields.get? "value" members).getD .null).asDouble)
    :: (givenPart "raw" id members ++ givenPart "bigint" id members
      ++ givenPart "regex" Value.asSource members)

mutual

/-- What a value is once it was decoded and encoded: at every depth, objects of literal
kind have the parts of their value at the end, and nothing else is changed. -/
def Value.reencoded : Value → Value
  | .array items => .array (Value.reencodedItems items)
  | .object members =>
    if namesLiteral members then
      .object (Tree.otherFields (Value.reencodedFields members) ++ literalTail members)
    else .object (Value.reencodedFields members)
  | other => other

def Value.reencodedItems : List Value → List Value
  | [] => []
  | item :: items => Value.reencoded item :: Value.reencodedItems items

def Value.reencodedFields : List (String × Value) → List (String × Value)
  | [] => []
  | (name, value) :: members => (name, Value.reencoded value) :: Value.reencodedFields members

end

theorem Value.reencodedFields_erase (part : String) (members : Fields Value) :
    reencodedFields (Fields.erase part members) =
      Fields.erase part (reencodedFields members) := by
  induction members with
  | nil => rfl
  | cons member members ih =>
      obtain ⟨name, value⟩ := member
      rw [reencodedFields, Fields.erase_cons, Fields.erase_cons]
      by_cases hname : name = part
      · rw [if_pos hname, if_pos hname, ih]
      · rw [if_neg hname, if_neg hname, reencodedFields, ih]

theorem Value.reencodedFields_otherFields (members : Fields Value) :
    reencodedFields (Tree.otherFields members) =
      Tree.otherFields (reencodedFields members) := by
  simp only [Tree.otherFields, Tree.literalParts, List.foldl_cons, List.foldl_nil,
    reencodedFields_erase]

end ParseView.Json

namespace ParseView.Tree

/-! ## What encoding writes -/

section Literal

variable {members : Fields Json.Value} {l : Literal}

theorem SideText.part_eq {part : String} {text : Option String}
    (h : SideText (Fields.get? part members) text) :
    (text.map fun s => (part, Json.Value.string s)).toList = Json.givenPart part id members := by
  rw [Json.givenPart]
  generalize Fields.get? part members = given at h
  cases h <;> rfl

theorem SideSource.part_eq {part : String} {source : Option Regexp.Source}
    (h : SideSource (Fields.get? part members) source) :
    (source.map fun source => (part, Json.Value.object
      [("pattern", .string source.pattern), ("flags", .string source.flags)])).toList =
        Json.givenPart part Json.Value.asSource members := by
  rw [Json.givenPart]
  generalize Fields.get? part members = given at h
  cases h with
  | absent | null => rfl
  | source hpattern hflags => simp [Json.Value.asSource, hpattern, hflags]

theorem Restores.toJson_eq {source : Json.Value} {bigint : Option String}
    {regex : Option Regexp.Source} {value : LiteralValue}
    (h : Restores source bigint regex value) : value.toJson = source.asDouble := by
  cases h <;> rfl

/-- A repaired literal is written as the parts that it was repaired from. -/
theorem Literal.RepairedFrom.fields_eq (h : l.RepairedFrom members) :
    l.fields = Json.literalTail members := by
  rw [Literal.fields, Json.literalTail, h.value.toJson_eq, h.raw.part_eq, h.bigint.part_eq,
    h.regex.part_eq]

theorem namesLiteral_of_named {kind : String}
    (h : Fields.get? "type" members = some (.string kind)) :
    Json.namesLiteral members = decide (kind = Literal.kind) := by
  rw [Json.namesLiteral, h]

theorem namesLiteral_of_unnamed
    (h : ∀ kind, Fields.get? "type" members ≠ some (.string kind)) :
    Json.namesLiteral members = false := by
  rw [Json.namesLiteral]
  split
  · next kind hkind => exact absurd hkind (h kind)
  · rfl

end Literal

mutual

/-- What a tree is written as is what the value it was rebuilt from is re-encoded to. -/
theorem Rebuilds.toJson_eq {source : Json.Value} {value : Value} (h : Rebuilds source value) :
    value.toJson = source.reencoded := by
  match value, h with
  | .null, .null => rfl
  | .bool b, .bool _ => rfl
  | .number n, .number _ => rfl
  | .string s, .string _ => rfl
  | .array values, .array h => rw [Value.toJson, Json.Value.reencoded, h.toJson_eq]
  | .object fields, .object distinct h unnamed =>
      rw [Value.toJson, Json.Value.reencoded, namesLiteral_of_unnamed unnamed, h.toJson_eq]
      rfl
  | .node (.element kind) fields, .element distinct h named other =>
      rw [Value.toJson, Json.Value.reencoded, namesLiteral_of_named named,
        decide_eq_false other, h.toJson_eq]
      rfl
  | .node (.literal l) fields, .literal distinct h named repaired =>
      -- The other fields stay in order, whether the parts are taken out before or after.
      rw [Value.toJson, Json.Value.reencoded, namesLiteral_of_named named, decide_eq_true rfl,
        h.toJson_eq, Json.Value.reencodedFields_otherFields, repaired.fields_eq]
      rfl

theorem RebuildsItems.toJson_eq {items : List Json.Value} {values : List Value}
    (h : RebuildsItems items values) :
    Value.listToJson values = Json.Value.reencodedItems items := by
  match values, h with
  | [], .nil => rfl
  | value :: values, .cons head tail =>
      rw [Value.listToJson, Json.Value.reencodedItems, head.toJson_eq, tail.toJson_eq]

theorem RebuildsFields.toJson_eq {members : Fields Json.Value} {fields : Fields Value}
    (h : RebuildsFields members fields) :
    Value.fieldsToJson fields = Json.Value.reencodedFields members := by
  match fields, h with
  | [], .nil => rfl
  | (name, value) :: fields, .cons head tail =>
      rw [Value.fieldsToJson, Json.Value.reencodedFields, head.toJson_eq, tail.toJson_eq]

end

/-- Whole numbers of sixty-four bits become the nearest doubles. -/
theorem nearest_toBinary64 (n : Json.Whole) :
    Binary64.Nearest n.val (Json.Numeral.whole n).toBinary64 := by
  have hlower := n.lower
  have hupper := n.upper
  have hlt : n.val.natAbs < 2 ^ 64 := by omega
  have hlog : Nat.log2 n.val.natAbs < 64 := by
    by_cases hzero : n.val.natAbs = 0
    · rw [hzero]
      decide
    · exact (Nat.log2_lt hzero).mpr hlt
  exact Binary64.ofInt_nearest (by omega)

/-- Decoding and encoding a program loses nothing. The text that is written holds what
the program's text held, objects of literal kind re-ordered as `reencoded` says, if the
doubles in it are read back as they are written. The double that a whole number becomes
in the place of a literal's value is the nearest one. -/
theorem read_text_of_decode {text : String} {node : Node} (h : decode text = .ok node)
    (hdoubles : ∀ x, .double x ∈ node.toJson.numerals → Binary64.ReadsBack x) :
    ∃ source, Json.read? text = some source ∧
      Json.read? node.text = some source.reencoded ∧
      ∀ n : Json.Whole, Binary64.Nearest n.val (Json.Numeral.whole n).toBinary64 := by
  obtain ⟨source, hs, hr⟩ := rebuilds_of_decode h
  refine ⟨source, hs, ?_, nearest_toBinary64⟩
  have hnumerals : ∀ n ∈ node.toJson.numerals, n.Scans := by
    intro n hn
    cases n with
    | whole n => exact Json.Numeral.scans_whole n
    | double x => exact hdoubles x hn
  have hwritten : node.toJson = source.reencoded := hr.toJson_eq
  rw [← hwritten, Node.text]
  exact Json.read?_text hr.distinctNames hnumerals

/-- A literal with a key that is repeated in one of its other fields, an empty part, and
its value behind the text of it. -/
def scatteredLiteral : String :=
  "\x7b\"raw\":\"3\",\"type\":\"Literal\",\"note\":[\x7b\"b\":1,\"a\":2,\"b\":4\x7d],"
    ++ "\"bigint\":null,\"value\":3\x7d"

/-- Three, as a double. -/
def three : Binary64 := ⟨0x4008000000000000⟩

theorem three_readsBack : three.ReadsBack := by
  have htext : three.interchangeText = ['3', '.', '0'] := by decide +kernel
  have hscaled : Binary64.ofScaled false 30 (-1) = some three := by decide +kernel
  refine ⟨⟨false, ['3'], some ['0'], none, []⟩, ?_, rfl, ?_⟩
  · rw [Json.Numeral.text, htext]
    rfl
  · show Except.map _ (Option.elim (Binary64.ofScaled false 30 (-1)) _ _) = _
    rw [hscaled]
    rfl

def scatteredLiteralNode : Node :=
  ⟨.literal ⟨.number three, some "3", none, none⟩,
    [("type", .string "Literal"), ("note", .array [.object [("b", .number (.ofNat 4)),
      ("a", .number (.ofNat 2))]])]⟩

theorem read_text_of_scatteredLiteral :
    decode scatteredLiteral = .ok scatteredLiteralNode ∧
      Json.read? scatteredLiteralNode.text = some (.object
        [("type", .string "Literal"), ("note", .array [.object [("b", .number (.ofNat 4)),
          ("a", .number (.ofNat 2))]]), ("value", .number (.double three)),
          ("raw", .string "3")]) := by
  have hdecode : decode scatteredLiteral = .ok scatteredLiteralNode := by cbv
  have hdoubles (x : Binary64) (hx : .double x ∈ scatteredLiteralNode.toJson.numerals) :
      x.ReadsBack := by
    have hnumerals : scatteredLiteralNode.toJson.numerals =
        [.ofNat 4, .ofNat 2, .double three] := rfl
    rw [hnumerals] at hx
    obtain rfl : x = three := by simpa [Json.Numeral.ofNat] using hx
    exact three_readsBack
  have hread : Json.read? scatteredLiteral = some (.object [("raw", .string "3"),
      ("type", .string "Literal"), ("note", .array [.object [("b", .number (.ofNat 4)),
        ("a", .number (.ofNat 2))]]), ("bigint", .null), ("value", .number (.ofNat 3))]) := by
    cbv
  have hthree : Binary64.ofInt 3 = three := by decide +kernel
  obtain ⟨source, hs, hr, -⟩ := read_text_of_decode hdecode hdoubles
  cases hs.symm.trans hread
  refine ⟨hdecode, hr.trans ?_⟩
  rw [← hthree]
  rfl

end ParseView.Tree
