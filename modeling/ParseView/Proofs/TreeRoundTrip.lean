import ParseView.Proofs.JsonReading
import ParseView.Proofs.LiteralRepair
import ParseView.Tree.Encode

/-!
# A tree comes back from its text

What decoding can produce, encoding writes so that decoding produces it again. A literal
is the only place where the two are not the mirror of each other: it is taken apart from
four fields wherever they stood and written with these at its end, and a value that was
restored is written as the null it was restored from. That the same value is restored
again is what `Restores` says.

The proof goes over the tree as it was rebuilt. Every part of a written text decodes to
the part of the tree it was written for, whatever stands behind it.
-/

namespace ParseView.Json

/-! ## No key is repeated -/

mutual

/-- No object of the value has two fields of one name. -/
def Value.DistinctNames : Value → Prop
  | .array items => Value.DistinctNamesOfItems items
  | .object fields => (Fields.names fields).Nodup ∧ Value.DistinctNamesOfFields fields
  | _ => True

def Value.DistinctNamesOfItems : List Value → Prop
  | [] => True
  | item :: items => item.DistinctNames ∧ Value.DistinctNamesOfItems items

def Value.DistinctNamesOfFields : List (String × Value) → Prop
  | [] => True
  | (_, value) :: fields => value.DistinctNames ∧ Value.DistinctNamesOfFields fields

end

mutual

/-- No object of the document has two members of one key. -/
def Doc.DistinctKeys : Doc → Prop
  | .array items _ => Doc.DistinctKeysOfItems items
  | .object members _ => (members.map (·.1)).Nodup ∧ Doc.DistinctKeysOfMembers members
  | _ => True

def Doc.DistinctKeysOfItems : List Doc → Prop
  | [] => True
  | item :: items => item.DistinctKeys ∧ Doc.DistinctKeysOfItems items

def Doc.DistinctKeysOfMembers : List (Key × Doc) → Prop
  | [] => True
  | (_, doc) :: members => doc.DistinctKeys ∧ Doc.DistinctKeysOfMembers members

end

theorem Value.keys_memberDocs (fields : List (String × Value)) (rest : List Char) :
    (memberDocs fields rest).map (·.1) = (Fields.names fields).map Except.ok := by
  induction fields with
  | nil => rfl
  | cons field fields ih =>
      obtain ⟨name, value⟩ := field
      simpa [memberDocs, Fields.names] using ih

mutual

theorem Value.DistinctNames.doc {v : Value} (h : v.DistinctNames) (rest : List Char) :
    (v.doc rest).DistinctKeys := by
  match v with
  | .null | .bool _ | .number _ | .string _ => trivial
  | .array items => exact Value.DistinctNamesOfItems.docs h rest
  | .object fields =>
      refine ⟨?_, Value.DistinctNamesOfFields.memberDocs h.2 rest⟩
      rw [keys_memberDocs]
      exact List.Pairwise.map Except.ok (fun _ _ hne heq => hne (Except.ok.inj heq)) h.1

theorem Value.DistinctNamesOfItems.docs {items : List Value} (h : DistinctNamesOfItems items)
    (rest : List Char) : Doc.DistinctKeysOfItems (Value.docs items rest) := by
  match items with
  | [] => trivial
  | item :: items => exact ⟨h.1.doc _, Value.DistinctNamesOfItems.docs h.2 rest⟩

theorem Value.DistinctNamesOfFields.memberDocs {fields : List (String × Value)}
    (h : DistinctNamesOfFields fields) (rest : List Char) :
    Doc.DistinctKeysOfMembers (Value.memberDocs fields rest) := by
  match fields with
  | [] => trivial
  | (name, value) :: fields =>
      exact ⟨h.1.doc _, Value.DistinctNamesOfFields.memberDocs h.2 rest⟩

end

theorem Value.distinctNamesOfFields_append {first second : List (String × Value)}
    (hf : DistinctNamesOfFields first) (hs : DistinctNamesOfFields second) :
    DistinctNamesOfFields (first ++ second) := by
  induction first with
  | nil => exact hs
  | cons field first ih => exact ⟨hf.1, ih hf.2⟩

end ParseView.Json

namespace ParseView.Tree

/-! ## The parts of a written literal -/

/-- What a literal's value is written as, read as it stands. -/
def LiteralValue.plain : LiteralValue → Value
  | .null | .bigint _ | .regexp _ => .null
  | .boolean b => .bool b
  | .number x => .number (.double x)
  | .string s => .string s

def plainSource (source : Regexp.Source) : Value :=
  .object [("pattern", .string source.pattern), ("flags", .string source.flags)]

/-- The fields that a literal's value is written as, read as they stand. -/
def Literal.plainFields (l : Literal) : Fields Value :=
  ("value", l.value.plain)
    :: ((l.raw.map fun s => ("raw", Value.string s)).toList
      ++ (l.bigint.map fun s => ("bigint", Value.string s)).toList
      ++ (l.regex.map fun source => ("regex", plainSource source)).toList)

section PlainFields

variable (l : Literal)

theorem Literal.get?_value_plainFields :
    Fields.get? "value" l.plainFields = some l.value.plain := rfl

theorem Literal.get?_raw_plainFields :
    Fields.get? "raw" l.plainFields = l.raw.map .string := by
  obtain ⟨value, raw, bigint, regex⟩ := l
  cases raw <;> cases bigint <;> cases regex <;> rfl

theorem Literal.get?_bigint_plainFields :
    Fields.get? "bigint" l.plainFields = l.bigint.map .string := by
  obtain ⟨value, raw, bigint, regex⟩ := l
  cases raw <;> cases bigint <;> cases regex <;> rfl

theorem Literal.get?_regex_plainFields :
    Fields.get? "regex" l.plainFields = l.regex.map plainSource := by
  obtain ⟨value, raw, bigint, regex⟩ := l
  cases raw <;> cases bigint <;> cases regex <;> rfl

theorem Literal.otherFields_plainFields : otherFields l.plainFields = [] := by
  obtain ⟨value, raw, bigint, regex⟩ := l
  cases raw <;> cases bigint <;> cases regex <;> rfl

theorem Literal.names_plainFields_sublist :
    List.Sublist (Fields.names l.plainFields) literalParts := by
  obtain ⟨value, raw, bigint, regex⟩ := l
  have hpart {α : Type} (name : String) (f : α → Value) (part : Option α) :
      List.Sublist (Fields.names (part.map fun x => (name, f x)).toList) [name] := by
    cases part with
    | none => exact List.nil_sublist _
    | some x => exact List.Sublist.refl _
  have happend := (((hpart "raw" .string raw).append (hpart "bigint" .string bigint)).append
    (hpart "regex" plainSource regex)).cons_cons "value"
  simpa [Literal.plainFields, Fields.names, literalParts] using happend

theorem Literal.names_fields : Fields.names l.fields = Fields.names l.plainFields := by
  obtain ⟨value, raw, bigint, regex⟩ := l
  cases raw <;> cases bigint <;> cases regex <;> rfl

end PlainFields

/-! ## Repairing what was written -/

theorem optionalText_map (error : Shape → LiteralError) (text : Option String) :
    optionalText error (text.map .string) = .ok text := by
  cases text <;> rfl

theorem optionalRegex_map (source : Option Regexp.Source) :
    optionalRegex (source.map plainSource) = .ok source := by
  cases source <;> rfl

/-- A restored value is restored again from the null that it is written as. -/
theorem literalValue_plain {source : Json.Value} {bigint : Option String}
    {regex : Option Regexp.Source} {value : LiteralValue}
    (h : Restores source bigint regex value) :
    literalValue value.plain bigint regex = .ok value := by
  cases h with
  | boolean | number | string | nothing => rfl
  | bigint h regex =>
      simp [LiteralValue.plain, literalValue, restoredValue, numeralValue?_eq_some_iff.mpr h]
  | regexp h _ _ => simp [LiteralValue.plain, literalValue, restoredValue, h]
  | refused h => simp [LiteralValue.plain, literalValue, restoredValue, h]

section Assemble

variable {members : Fields Json.Value} {fields : Fields Value}

theorem not_mem_names_otherFields {α : Type} (fields : Fields α) {part : String}
    (h : part ∈ literalParts) : part ∉ Fields.names (otherFields fields) := by
  simp only [otherFields, literalParts, List.foldl_cons, List.foldl_nil, Fields.mem_names_erase]
  simp only [literalParts, List.mem_cons, List.not_mem_nil, or_false] at h
  rintro ⟨⟨⟨⟨-, hvalue⟩, hraw⟩, hbigint⟩, hregex⟩
  rcases h with rfl | rfl | rfl | rfl
  · exact hvalue rfl
  · exact hraw rfl
  · exact hbigint rfl
  · exact hregex rfl

theorem otherFields_append (first second : Fields Value) :
    otherFields (first ++ second) = otherFields first ++ otherFields second := by
  simp [otherFields, literalParts, Fields.erase]

theorem otherFields_eq_self {fields : Fields Value}
    (h : ∀ part ∈ literalParts, part ∉ Fields.names fields) : otherFields fields = fields := by
  have hvalue := Fields.erase_of_not_mem (h "value" (by decide))
  have hraw := Fields.erase_of_not_mem (h "raw" (by decide))
  have hbigint := Fields.erase_of_not_mem (h "bigint" (by decide))
  have hregex := Fields.erase_of_not_mem (h "regex" (by decide))
  simp only [otherFields, literalParts, List.foldl_cons, List.foldl_nil, hvalue, hraw, hbigint,
    hregex]

theorem get?_type_otherFields {α : Type} (fields : Fields α) :
    Fields.get? "type" (otherFields fields) = Fields.get? "type" fields := by
  simp only [otherFields, literalParts, List.foldl_cons, List.foldl_nil]
  rw [Fields.get?_erase_of_ne (by decide), Fields.get?_erase_of_ne (by decide),
    Fields.get?_erase_of_ne (by decide), Fields.get?_erase_of_ne (by decide)]

/-- A literal is repaired from its other fields and the ones it was written as. -/
theorem repairLiteral_written {l : Literal} (hl : l.RepairedFrom members)
    (hf : ∀ part ∈ literalParts, part ∉ Fields.names fields) :
    repairLiteral (fields ++ l.plainFields) = .ok (.node (.literal l) fields) := by
  have hget (part : String) (hpart : part ∈ literalParts) :
      Fields.get? part (fields ++ l.plainFields) = Fields.get? part l.plainFields := by
    rw [Fields.get?_append, Fields.get?_eq_none_of_not_mem (hf part hpart), Option.none_or]
  have hraw := optionalText_map .rawNotString l.raw
  have hbigint := optionalText_map .bigintNotString l.bigint
  have hregex := optionalRegex_map l.regex
  have hvalue := literalValue_plain hl.value
  rw [← l.get?_raw_plainFields, ← hget "raw" (by decide)] at hraw
  rw [← l.get?_bigint_plainFields, ← hget "bigint" (by decide)] at hbigint
  rw [← l.get?_regex_plainFields, ← hget "regex" (by decide)] at hregex
  have hencoded : (Fields.get? "value" (fields ++ l.plainFields)).getD .null =
      l.value.plain := by
    rw [hget "value" (by decide), l.get?_value_plainFields, Option.getD_some]
  have hothers : otherFields (fields ++ l.plainFields) = fields := by
    rw [otherFields_append, otherFields_eq_self hf, l.otherFields_plainFields, List.append_nil]
  rw [otherFields] at hothers
  simp [repairLiteral, hraw, hbigint, hregex, hencoded, hvalue, hothers, bind, Except.bind,
    pure, Except.pure]

/-- An object that names no kind in its text names none in the tree. -/
theorem assemble_plain (h : RebuildsFields members fields)
    (unnamed : ∀ kind, Fields.get? "type" members ≠ some (.string kind)) :
    assemble fields = .ok (.object fields) := by
  rw [assemble]
  rcases h.get? "type" with ⟨-, hf⟩ | ⟨member, value, hm, hf, hv⟩
  · rw [hf]
  · rw [hf]
    cases hv with
    | string kind => exact absurd hm (unnamed kind)
    | _ => rfl

theorem get?_type_of_named {kind : String} (h : RebuildsFields members fields)
    (named : Fields.get? "type" members = some (.string kind)) :
    Fields.get? "type" fields = some (.string kind) := by
  rcases h.get? "type" with ⟨hm, -⟩ | ⟨member, value, hm, hf, hv⟩
  · rw [hm] at named
    exact nomatch named
  · rw [hm] at named
    cases Option.some.inj named
    cases hv with
    | string kind => exact hf

theorem assemble_element {kind : String} (h : RebuildsFields members fields)
    (named : Fields.get? "type" members = some (.string kind)) (other : kind ≠ Literal.kind) :
    assemble fields = .ok (.node (.element kind) fields) := by
  rw [assemble, get?_type_of_named h named]
  exact if_neg other

theorem assemble_literal {l : Literal} (h : RebuildsFields (otherFields members) fields)
    (named : Fields.get? "type" members = some (.string Literal.kind))
    (hl : l.RepairedFrom members) :
    assemble (fields ++ l.plainFields) = .ok (.node (.literal l) fields) := by
  have htype : Fields.get? "type" fields = some (.string Literal.kind) :=
    get?_type_of_named h (by rw [get?_type_otherFields, named])
  have hparts : ∀ part ∈ literalParts, part ∉ Fields.names fields := fun part hpart => by
    rw [h.names_eq]
    exact not_mem_names_otherFields members hpart
  rw [assemble, Fields.get?_append, htype]
  simpa using repairLiteral_written hl hparts

theorem nodup_names_written (l : Literal) (distinct : (Fields.names members).Nodup)
    (h : RebuildsFields (otherFields members) fields) :
    (Fields.names (fields ++ l.plainFields)).Nodup := by
  have hsub := l.names_plainFields_sublist
  rw [Fields.names, List.map_append, List.nodup_append]
  refine ⟨?_, hsub.nodup (by decide), ?_⟩
  · have hnodup := nodup_names_otherFields distinct
    rw [← h.names_eq] at hnodup
    exact hnodup
  · rintro name hname part hpart rfl
    refine not_mem_names_otherFields members (hsub.subset hpart) ?_
    rw [← h.names_eq]
    exact hname

end Assemble

/-! ## Decoding what was written -/

/-- The text of the value decodes to the tree, whatever stands behind it. -/
def DecodesTo (source : Json.Value) (value : Value) : Prop :=
  ∀ rest, Value.ofDoc (source.doc rest) = .ok value

inductive FieldsDecodeTo : Fields Json.Value → Fields Value → Prop where
  | nil : FieldsDecodeTo [] []
  | cons {name : String} {member : Json.Value} {value : Value} {members : Fields Json.Value}
      {fields : Fields Value} (head : DecodesTo member value)
      (tail : FieldsDecodeTo members fields) :
      FieldsDecodeTo ((name, member) :: members) ((name, value) :: fields)

namespace FieldsDecodeTo

variable {members more : Fields Json.Value} {fields others : Fields Value}

theorem append (h : FieldsDecodeTo members fields) (hm : FieldsDecodeTo more others) :
    FieldsDecodeTo (members ++ more) (fields ++ others) := by
  induction members generalizing fields with
  | nil => cases h; exact hm
  | cons member members ih =>
      cases h with
      | cons head tail => exact .cons head (ih tail)

theorem ofMembers (h : FieldsDecodeTo members fields) (rest : List Char) :
    Value.ofMembers (Json.Value.memberDocs members rest) = .ok fields := by
  induction members generalizing fields with
  | nil => cases h; rfl
  | cons member members ih =>
      cases h with
      | cons head tail =>
          simp [Json.Value.memberDocs, Value.ofMembers, head _, ih tail, bind, Except.bind,
            Except.mapError, pure, Except.pure]

theorem object (h : FieldsDecodeTo members fields) (distinct : (Fields.names fields).Nodup)
    {value : Value} (ha : assemble fields = .ok value) : DecodesTo (.object members) value := by
  intro rest
  simp [Json.Value.doc, Value.ofDoc, h.ofMembers, Fields.ofEntries_eq_self distinct, ha, bind,
    Except.bind, Except.mapError]

end FieldsDecodeTo

theorem LiteralValue.decodesTo (value : LiteralValue) : DecodesTo value.toJson value.plain := by
  intro rest
  cases value <;> rfl

theorem decodesTo_string (s : String) : DecodesTo (.string s) (.string s) := fun _ => rfl

theorem decodesTo_source (source : Regexp.Source) :
    DecodesTo (.object [("pattern", .string source.pattern), ("flags", .string source.flags)])
      (plainSource source) :=
  FieldsDecodeTo.object (.cons (decodesTo_string _) (.cons (decodesTo_string _) .nil))
    (show ["pattern", "flags"].Nodup by decide) rfl

theorem fieldsDecodeTo_part {α : Type} {toJson : α → Json.Value} {plain : α → Value}
    (h : ∀ x, DecodesTo (toJson x) (plain x)) (name : String) (part : Option α) :
    FieldsDecodeTo (part.map fun x => (name, toJson x)).toList
      (part.map fun x => (name, plain x)).toList := by
  cases part with
  | none => exact .nil
  | some x => exact .cons (h x) .nil

theorem Literal.fieldsDecodeTo (l : Literal) : FieldsDecodeTo l.fields l.plainFields :=
  .cons l.value.decodesTo
    (((fieldsDecodeTo_part decodesTo_string "raw" l.raw).append
      (fieldsDecodeTo_part decodesTo_string "bigint" l.bigint)).append
        (fieldsDecodeTo_part decodesTo_source "regex" l.regex))

mutual

/-- A tree that was rebuilt is decoded from the text that is written of it. -/
theorem Rebuilds.decodesTo {source : Json.Value} {value : Value} (h : Rebuilds source value) :
    DecodesTo value.toJson value := by
  match value, h with
  | .null, _ => exact fun _ => rfl
  | .bool b, _ => exact fun _ => rfl
  | .number n, _ => exact fun _ => rfl
  | .string s, _ => exact decodesTo_string s
  | .array values, .array h =>
      intro rest
      simp [Value.toJson, Json.Value.doc, Value.ofDoc, h.ofDocs, bind, Except.bind, pure,
        Except.pure]
  | .object fields, .object distinct h unnamed =>
      exact h.decodeTo.object (h.names_eq ▸ distinct) (assemble_plain h unnamed)
  | .node (.element kind) fields, .element distinct h named other =>
      exact h.decodeTo.object (h.names_eq ▸ distinct) (assemble_element h named other)
  | .node (.literal l) fields, .literal distinct h named repaired =>
      -- The parts stand behind the other fields, wherever they stood before.
      exact (h.decodeTo.append l.fieldsDecodeTo).object (nodup_names_written l distinct h)
        (assemble_literal h named repaired)

theorem RebuildsItems.ofDocs {items : List Json.Value} {values : List Value}
    (h : RebuildsItems items values) (rest : List Char) :
    Value.ofDocs (Json.Value.docs (Value.listToJson values) rest) = .ok values := by
  match values, h with
  | [], _ => rfl
  | value :: values, .cons head tail =>
      simp [Value.listToJson, Json.Value.docs, Value.ofDocs, head.decodesTo _, tail.ofDocs, bind,
        Except.bind, pure, Except.pure]

theorem RebuildsFields.decodeTo {members : Fields Json.Value} {fields : Fields Value}
    (h : RebuildsFields members fields) : FieldsDecodeTo (Value.fieldsToJson fields) fields := by
  match fields, h with
  | [], _ => exact .nil
  | (name, value) :: fields, .cons head tail => exact .cons head.decodesTo tail.decodeTo

end

/-! ## The names of a written tree -/

theorem Value.names_fieldsToJson (fields : Fields Value) :
    Fields.names (fieldsToJson fields) = Fields.names fields := by
  induction fields with
  | nil => rfl
  | cons field fields ih =>
      obtain ⟨name, value⟩ := field
      simpa [fieldsToJson, Fields.names] using ih

theorem Literal.distinctNames_fields (l : Literal) :
    Json.Value.DistinctNamesOfFields l.fields := by
  have hpart {α : Type} (name : String) (toJson : α → Json.Value)
      (h : ∀ x, (toJson x).DistinctNames) (part : Option α) :
      Json.Value.DistinctNamesOfFields (part.map fun x => (name, toJson x)).toList := by
    cases part with
    | none => trivial
    | some x => exact ⟨h x, trivial⟩
  have hvalue : l.value.toJson.DistinctNames := by cases l.value <;> trivial
  have hraw := hpart "raw" .string (fun _ => trivial) l.raw
  have hbigint := hpart "bigint" .string (fun _ => trivial) l.bigint
  have hregex := hpart "regex" (fun source : Regexp.Source =>
    .object [("pattern", .string source.pattern), ("flags", .string source.flags)])
    (fun _ => ⟨show ["pattern", "flags"].Nodup by decide, trivial, trivial, trivial⟩) l.regex
  exact ⟨hvalue, Json.Value.distinctNamesOfFields_append
    (Json.Value.distinctNamesOfFields_append hraw hbigint) hregex⟩

mutual

theorem Rebuilds.distinctNames {source : Json.Value} {value : Value} (h : Rebuilds source value) :
    value.toJson.DistinctNames := by
  match value, h with
  | .null, _ | .bool _, _ | .number _, _ | .string _, _ => trivial
  | .array values, .array h => exact h.distinctNames
  | .object fields, .object distinct h unnamed =>
      refine ⟨?_, h.distinctNames⟩
      rw [Value.names_fieldsToJson, h.names_eq]
      exact distinct
  | .node (.element kind) fields, .element distinct h named other =>
      refine ⟨?_, h.distinctNames⟩
      rw [Value.names_fieldsToJson, h.names_eq]
      exact distinct
  | .node (.literal l) fields, .literal distinct h named repaired =>
      refine ⟨?_, Json.Value.distinctNamesOfFields_append h.distinctNames l.distinctNames_fields⟩
      have hnames : Fields.names (Value.fieldsToJson fields ++ l.fields) =
          Fields.names (fields ++ l.plainFields) := by
        have hfields := Value.names_fieldsToJson fields
        have hparts := l.names_fields
        simp only [Fields.names] at hfields hparts
        simp only [Fields.names, List.map_append, hfields, hparts]
      rw [hnames]
      exact nodup_names_written l distinct h

theorem RebuildsItems.distinctNames {items : List Json.Value} {values : List Value}
    (h : RebuildsItems items values) :
    Json.Value.DistinctNamesOfItems (Value.listToJson values) := by
  match values, h with
  | [], _ => trivial
  | value :: values, .cons head tail => exact ⟨head.distinctNames, tail.distinctNames⟩

theorem RebuildsFields.distinctNames {members : Fields Json.Value} {fields : Fields Value}
    (h : RebuildsFields members fields) :
    Json.Value.DistinctNamesOfFields (Value.fieldsToJson fields) := by
  match fields, h with
  | [], _ => trivial
  | (name, value) :: fields, .cons head tail => exact ⟨head.distinctNames, tail.distinctNames⟩

end

/-! ## The round trip -/

/-- Decoding undoes encoding on everything that decoding can produce, if the doubles in
the tree are read back as they are written: the text of the tree repeats no key and
decodes to the very tree, so that writing it again writes the same text. -/
theorem decode_text {text : String} {node : Node} (h : decode text = .ok node)
    (hdoubles : ∀ x, .double x ∈ node.toJson.numerals → Binary64.ReadsBack x) :
    (Json.Document.read node.text).root.DistinctKeys ∧ decode node.text = .ok node ∧
      (decode node.text).map Node.text = .ok node.text := by
  obtain ⟨source, -, hr⟩ := rebuilds_of_decode h
  have hnumerals : ∀ n ∈ node.toJson.numerals, n.Scans := fun n hn => by
    cases n with
    | whole n => exact Json.Numeral.scans_whole n
    | double x => exact hdoubles x hn
  have hread : Json.Document.read node.text = ⟨node.toJson.doc [], []⟩ :=
    Json.Document.read_text node.toJson hnumerals
  have hdecode : decode node.text = .ok node := by
    have hvalue : Value.ofDoc (node.toJson.doc []) = .ok (.node node.head node.fields) :=
      hr.decodesTo []
    simp [decode, hread, hvalue, Json.Document.trailingFault?, Json.skipBlank, bind, Except.bind,
      Except.mapError, pure, Except.pure]
  refine ⟨?_, hdecode, by rw [hdecode]; rfl⟩
  rw [hread]
  exact hr.distinctNames.doc []

/-- One half, whose text is short enough to be read back exactly. -/
def half : Binary64 := ⟨0x3FE0000000000000⟩

theorem half_readsBack : half.ReadsBack := by
  have htext : half.interchangeText = ['0', '.', '5'] := by decide +kernel
  have hscaled : Binary64.ofScaled false 5 (-1) = some half := by decide +kernel
  refine ⟨⟨false, ['0'], some ['5'], none, []⟩, ?_, rfl, ?_⟩
  · rw [Json.Numeral.text, htext]
    rfl
  · show Except.map _ (Option.elim (Binary64.ofScaled false 5 (-1)) _ _) = _
    rw [hscaled]
    rfl

/-- A literal among the fields of a literal. The parts stand in another order than they
are written in, and the inner one has flags that no regular expression has. -/
def literalInLiteral (x : Binary64) : Json.Value :=
  .object [("type", .string "Program"), ("body", .object
    [("value", .number (.double x)), ("type", .string "Literal"),
      ("note", .object [("regex", .object [("flags", .string "v"), ("pattern", .string "a")]),
        ("type", .string "Literal")])])]

def literalInLiteralTree (x : Binary64) : Node :=
  ⟨.element "Program", [("type", .string "Program"), ("body", .node
    (.literal ⟨.number x, none, none, none⟩) [("type", .string "Literal"),
      ("note", .node (.literal ⟨.null, none, none, some ⟨"a", "v"⟩⟩)
        [("type", .string "Literal")])])]⟩

theorem decode_literalInLiteral {x : Binary64} (hx : x.ReadsBack) :
    decode (literalInLiteral x).text = .ok (literalInLiteralTree x) := by
  have hread : Json.Document.read (literalInLiteral x).text =
      ⟨(literalInLiteral x).doc [], []⟩ :=
    Json.Document.read_text _ fun n hn => by
      obtain rfl : n = .double x := List.mem_singleton.mp hn
      exact hx
  have hvalue : Value.ofDoc ((literalInLiteral x).doc []) =
      .ok (literalInLiteralTree x).toValue := by
    cbv
  simp [decode, hread, hvalue, Node.toValue, literalInLiteralTree, Json.Document.trailingFault?,
    Json.skipBlank, bind, Except.bind, Except.mapError, pure, Except.pure]

theorem decode_text_literalInLiteral :
    decode (literalInLiteral half).text = .ok (literalInLiteralTree half) ∧
      (∀ x, .double x ∈ (literalInLiteralTree half).toJson.numerals → Binary64.ReadsBack x) ∧
      decode (literalInLiteralTree half).text = .ok (literalInLiteralTree half) := by
  have hdecode := decode_literalInLiteral half_readsBack
  have hdoubles (x : Binary64)
      (hx : .double x ∈ (literalInLiteralTree half).toJson.numerals) : x.ReadsBack := by
    cases List.mem_singleton.mp hx
    exact half_readsBack
  exact ⟨hdecode, hdoubles, (decode_text hdecode hdoubles).2.1⟩

end ParseView.Tree
