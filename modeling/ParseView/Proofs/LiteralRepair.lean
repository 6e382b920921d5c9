import Mathlib
import ParseView.Json.Writer
import ParseView.Proofs.NumeralValue
import ParseView.Tree.Decode
import ParseView.Tree.Walk

/-!
# What a literal is rebuilt from

A text is read twice here: once as plain values, which know nothing of literals, and
once as a tree. `Rebuilds` says how the two are related, constructor by constructor, and
`Literal.RepairedFrom` what a literal must be, given the object it was read from: a
boolean, a number or a string stands for itself, and a null for what the numeral or the
source beside it says.

Decoding rebuilds the value that its text holds, at every depth. From this follows what
a path leads to, in both directions: a path into the tree leads in the value of the text
to what was rebuilt there, and a path into the value of the text leads on into the tree,
unless it enters a part that the value of a literal is made of.
-/

namespace ParseView.Tree

/-! ## One literal -/

/-- A text beside a literal, which may be missing or null. -/
inductive SideText : Option Json.Value → Option String → Prop where
  | absent : SideText none none
  | null : SideText (some .null) none
  | text (s : String) : SideText (some (.string s)) (some s)

/-- A source beside a literal, which may be missing or null. -/
inductive SideSource : Option Json.Value → Option Regexp.Source → Prop where
  | absent : SideSource none none
  | null : SideSource (some .null) none
  | source {members : Fields Json.Value} {pattern flags : String}
      (hpattern : Fields.get? "pattern" members = some (.string pattern))
      (hflags : Fields.get? "flags" members = some (.string flags)) :
      SideSource (some (.object members)) (some ⟨pattern, flags⟩)

/-- What a value stands for beside a numeral and a source. Only a null stands for
something else than itself, and the numeral comes before the source. -/
inductive Restores : Json.Value → Option String → Option Regexp.Source → LiteralValue → Prop where
  | boolean (b : Bool) (bigint : Option String) (regex : Option Regexp.Source) :
      Restores (.bool b) bigint regex (.boolean b)
  | number (n : Json.Numeral) (bigint : Option String) (regex : Option Regexp.Source) :
      Restores (.number n) bigint regex (.number n.toBinary64)
  | string (s : String) (bigint : Option String) (regex : Option Regexp.Source) :
      Restores (.string s) bigint regex (.string s)
  | bigint {numeral : String} {n : Nat} (h : Denotes numeral.toList n)
      (regex : Option Regexp.Source) : Restores .null (some numeral) regex (.bigint n)
  | regexp {source : Regexp.Source} {r : Regexp} (h : Regexp.compile? source = some r)
      (hpattern : r.pattern = source.pattern)
      (hflags : Regexp.Flags.ofText? source.flags = some r.flags) :
      Restores .null none (some source) (.regexp r)
  | refused {source : Regexp.Source} (h : Regexp.compile? source = none) :
      Restores .null none (some source) .null
  | nothing : Restores .null none none .null

/-- The literal that an object of literal kind is repaired to. A value that is missing
counts as null. -/
structure Literal.RepairedFrom (l : Literal) (members : Fields Json.Value) : Prop where
  raw : SideText (Fields.get? "raw" members) l.raw
  bigint : SideText (Fields.get? "bigint" members) l.bigint
  regex : SideSource (Fields.get? "regex" members) l.regex
  value : Restores ((Fields.get? "value" members).getD .null) l.bigint l.regex l.value

/-- The fields of a literal that its value is not made of. -/
def otherFields {α : Type} (fields : Fields α) : Fields α :=
  literalParts.foldl (fun fields part => Fields.erase part fields) fields

/-! ## A whole tree -/

mutual

/-- The tree is what a value is rebuilt to. An object that names a kind is a node, and
one that names the kind of literals is repaired. -/
inductive Rebuilds : Json.Value → Value → Prop where
  | null : Rebuilds .null .null
  | bool (b : Bool) : Rebuilds (.bool b) (.bool b)
  | number (n : Json.Numeral) : Rebuilds (.number n) (.number n)
  | string (s : String) : Rebuilds (.string s) (.string s)
  | array {items : List Json.Value} {values : List Value} (h : RebuildsItems items values) :
      Rebuilds (.array items) (.array values)
  | object {members : Fields Json.Value} {fields : Fields Value}
      (distinct : (Fields.names members).Nodup) (h : RebuildsFields members fields)
      (unnamed : ∀ kind, Fields.get? "type" members ≠ some (.string kind)) :
      Rebuilds (.object members) (.object fields)
  | element {members : Fields Json.Value} {fields : Fields Value} {kind : String}
      (distinct : (Fields.names members).Nodup) (h : RebuildsFields members fields)
      (named : Fields.get? "type" members = some (.string kind)) (other : kind ≠ Literal.kind) :
      Rebuilds (.object members) (.node (.element kind) fields)
  | literal {members : Fields Json.Value} {fields : Fields Value} {l : Literal}
      (distinct : (Fields.names members).Nodup)
      (h : RebuildsFields (otherFields members) fields)
      (named : Fields.get? "type" members = some (.string Literal.kind))
      (repaired : l.RepairedFrom members) :
      Rebuilds (.object members) (.node (.literal l) fields)

inductive RebuildsItems : List Json.Value → List Value → Prop where
  | nil : RebuildsItems [] []
  | cons {item : Json.Value} {value : Value} {items : List Json.Value} {values : List Value}
      (head : Rebuilds item value) (tail : RebuildsItems items values) :
      RebuildsItems (item :: items) (value :: values)

inductive RebuildsFields : Fields Json.Value → Fields Value → Prop where
  | nil : RebuildsFields [] []
  | cons {name : String} {member : Json.Value} {value : Value} {members : Fields Json.Value}
      {fields : Fields Value} (head : Rebuilds member value)
      (tail : RebuildsFields members fields) :
      RebuildsFields ((name, member) :: members) ((name, value) :: fields)

end

/-! ## Fields of rebuilt objects -/

namespace RebuildsFields

variable {members : Fields Json.Value} {fields : Fields Value}

theorem names_eq (h : RebuildsFields members fields) :
    Fields.names fields = Fields.names members := by
  induction members generalizing fields with
  | nil => cases h; rfl
  | cons field members ih =>
      cases h with
      | cons head tail => simpa [Fields.names] using ih tail

theorem get? (h : RebuildsFields members fields) (name : String) :
    (Fields.get? name members = none ∧ Fields.get? name fields = none) ∨
      ∃ member value, Fields.get? name members = some member ∧
        Fields.get? name fields = some value ∧ Rebuilds member value := by
  induction members generalizing fields with
  | nil => cases h; exact .inl ⟨rfl, rfl⟩
  | cons field members ih =>
      cases h with
      | @cons key member value _ fields head tail =>
          by_cases hkey : key = name
          · exact .inr ⟨member, value, by simp [Fields.get?, hkey], by simp [Fields.get?, hkey],
              head⟩
          · simpa only [Fields.get?, if_neg hkey] using ih tail

theorem insert (h : RebuildsFields members fields) (name : String) {member : Json.Value}
    {value : Value} (hv : Rebuilds member value) :
    RebuildsFields (Fields.insert name member members) (Fields.insert name value fields) := by
  induction members generalizing fields with
  | nil => cases h; exact .cons hv .nil
  | cons field members ih =>
      cases h with
      | @cons key _ _ _ _ head tail =>
          by_cases hkey : key = name
          · simpa only [Fields.insert, if_pos hkey] using .cons hv tail
          · simpa only [Fields.insert, if_neg hkey] using .cons head (ih tail)

theorem ofEntries {entries : List (String × Json.Value)} {values : List (String × Value)}
    (h : RebuildsFields entries values) :
    RebuildsFields (Fields.ofEntries entries) (Fields.ofEntries values) := by
  have hfold (members : Fields Json.Value) (fields : Fields Value)
      (hf : RebuildsFields members fields) :
      RebuildsFields
        (entries.foldl (fun fields entry => Fields.insert entry.1 entry.2 fields) members)
        (values.foldl (fun fields entry => Fields.insert entry.1 entry.2 fields) fields) := by
    induction entries generalizing values members fields with
    | nil => cases h; exact hf
    | cons entry entries ih =>
        cases h with
        | cons head tail => exact ih tail _ _ (hf.insert _ head)
  exact hfold [] [] .nil

theorem erase (h : RebuildsFields members fields) (name : String) :
    RebuildsFields (Fields.erase name members) (Fields.erase name fields) := by
  induction members generalizing fields with
  | nil => cases h; exact .nil
  | cons field members ih =>
      cases h with
      | @cons key _ _ _ _ head tail =>
          rw [Fields.erase_cons, Fields.erase_cons]
          by_cases hkey : key = name
          · rw [if_pos hkey, if_pos hkey]
            exact ih tail
          · rw [if_neg hkey, if_neg hkey]
            exact .cons head (ih tail)

theorem otherFields (h : RebuildsFields members fields) :
    RebuildsFields (Tree.otherFields members) (Tree.otherFields fields) := by
  simp only [Tree.otherFields, literalParts, List.foldl_cons, List.foldl_nil]
  exact (((h.erase _).erase _).erase _).erase _

end RebuildsFields

/-! ## Repairing -/

section Repair

variable {members : Fields Json.Value} {fields : Fields Value}

theorem sideText_of_optionalText {error : Shape → LiteralError} {name : String}
    {text : Option String} (h : RebuildsFields members fields)
    (ht : optionalText error (Fields.get? name fields) = .ok text) :
    SideText (Fields.get? name members) text := by
  rcases h.get? name with ⟨hm, hf⟩ | ⟨member, value, hm, hf, hv⟩
  · rw [hf] at ht
    rw [hm, ← Except.ok.inj ht]
    exact .absent
  · rw [hf] at ht
    rw [hm]
    cases hv with
    | null => rw [← Except.ok.inj ht]; exact .null
    | string s => rw [← Except.ok.inj ht]; exact .text s
    | _ => exact nomatch ht

theorem get?_of_regexPart {part s : String} (h : RebuildsFields members fields)
    (hp : regexPart fields part = .ok s) : Fields.get? part members = some (.string s) := by
  rcases h.get? part with ⟨-, hf⟩ | ⟨member, value, hm, hf, hv⟩
  · rw [regexPart, hf] at hp
    exact nomatch hp
  · rw [regexPart, hf] at hp
    cases hv with
    | string s => rw [hm, ← Except.ok.inj hp]
    | _ => exact nomatch hp

theorem sideSource_of_optionalRegex {name : String} {source : Option Regexp.Source}
    (h : RebuildsFields members fields)
    (hs : optionalRegex (Fields.get? name fields) = .ok source) :
    SideSource (Fields.get? name members) source := by
  rcases h.get? name with ⟨hm, hf⟩ | ⟨member, value, hm, hf, hv⟩
  · rw [hf] at hs
    rw [hm, ← Except.ok.inj hs]
    exact .absent
  · rw [hf] at hs
    rw [hm]
    cases hv with
    | null => rw [← Except.ok.inj hs]; exact .null
    | @object parts values distinct hparts unnamed =>
        cases hpattern : regexPart values "pattern" with
        | error e => simp [optionalRegex, hpattern, bind, Except.bind] at hs
        | ok pattern =>
        cases hflags : regexPart values "flags" with
        | error e => simp [optionalRegex, hpattern, hflags, bind, Except.bind] at hs
        | ok flags =>
        obtain rfl : some ⟨pattern, flags⟩ = source := by
          simpa [optionalRegex, hpattern, hflags, bind, Except.bind, pure, Except.pure] using hs
        exact .source (get?_of_regexPart hparts hpattern) (get?_of_regexPart hparts hflags)
    | _ => exact nomatch hs

theorem compile?_parts {source : Regexp.Source} {r : Regexp}
    (h : Regexp.compile? source = some r) :
    r.pattern = source.pattern ∧ Regexp.Flags.ofText? source.flags = some r.flags := by
  simp only [Regexp.compile?, Option.bind_eq_bind, Option.bind_eq_some_iff, Option.pure_def,
    Option.some.injEq] at h
  obtain ⟨flags, hflags, -, -, -, -, rfl⟩ := h
  exact ⟨rfl, hflags⟩

theorem restores_of_restoredValue {bigint : Option String} {regex : Option Regexp.Source}
    {value : LiteralValue} (h : restoredValue bigint regex = .ok value) :
    Restores .null bigint regex value := by
  cases bigint with
  | some numeral =>
      cases hn : numeralValue? numeral.toList with
      | none => simp [restoredValue, hn] at h
      | some n =>
          obtain rfl : LiteralValue.bigint n = value := by simpa [restoredValue, hn] using h
          exact .bigint (numeralValue?_eq_some_iff.mp hn) regex
  | none =>
      cases regex with
      | none =>
          obtain rfl : LiteralValue.null = value := by simpa [restoredValue] using h
          exact .nothing
      | some source =>
          cases hc : Regexp.compile? source with
          | none =>
              obtain rfl : LiteralValue.null = value := by simpa [restoredValue, hc] using h
              exact .refused hc
          | some r =>
              obtain rfl : LiteralValue.regexp r = value := by simpa [restoredValue, hc] using h
              exact .regexp hc (compile?_parts hc).1 (compile?_parts hc).2

theorem restores_of_literalValue {name : String} {bigint : Option String}
    {regex : Option Regexp.Source} {value : LiteralValue} (h : RebuildsFields members fields)
    (hl : literalValue ((Fields.get? name fields).getD .null) bigint regex = .ok value) :
    Restores ((Fields.get? name members).getD .null) bigint regex value := by
  rcases h.get? name with ⟨hm, hf⟩ | ⟨member, encoded, hm, hf, hv⟩
  · rw [hf] at hl
    rw [hm]
    exact restores_of_restoredValue hl
  · rw [hf] at hl
    rw [hm]
    cases hv with
    | null => exact restores_of_restoredValue hl
    | bool b => rw [← Except.ok.inj hl]; exact .boolean b bigint regex
    | number n => rw [← Except.ok.inj hl]; exact .number n bigint regex
    | string s => rw [← Except.ok.inj hl]; exact .string s bigint regex
    | _ => exact nomatch hl

theorem repairedFrom_of_repairLiteral {value : Value} (h : RebuildsFields members fields)
    (hr : repairLiteral fields = .ok value) :
    ∃ l : Literal, value = .node (.literal l) (otherFields fields) ∧ l.RepairedFrom members := by
  cases hraw : optionalText .rawNotString (Fields.get? "raw" fields) with
  | error e => simp [repairLiteral, hraw, bind, Except.bind] at hr
  | ok raw =>
  cases hbigint : optionalText .bigintNotString (Fields.get? "bigint" fields) with
  | error e => simp [repairLiteral, hraw, hbigint, bind, Except.bind] at hr
  | ok bigint =>
  cases hregex : optionalRegex (Fields.get? "regex" fields) with
  | error e => simp [repairLiteral, hraw, hbigint, hregex, bind, Except.bind] at hr
  | ok regex =>
  cases hvalue : literalValue ((Fields.get? "value" fields).getD .null) bigint regex with
  | error e => simp [repairLiteral, hraw, hbigint, hregex, hvalue, bind, Except.bind] at hr
  | ok restored =>
  refine ⟨⟨restored, raw, bigint, regex⟩, ?_, ?_⟩
  · simpa [repairLiteral, hraw, hbigint, hregex, hvalue, bind, Except.bind, pure, Except.pure,
      otherFields] using hr.symm
  · exact
      { raw := sideText_of_optionalText h hraw
        bigint := sideText_of_optionalText h hbigint
        regex := sideSource_of_optionalRegex h hregex
        value := restores_of_literalValue h hvalue }

theorem rebuilds_of_assemble {value : Value} (distinct : (Fields.names members).Nodup)
    (h : RebuildsFields members fields) (ha : assemble fields = .ok value) :
    Rebuilds (.object members) value := by
  rw [assemble] at ha
  rcases h.get? "type" with ⟨hm, hf⟩ | ⟨member, named, hm, hf, hv⟩
  · rw [hf] at ha
    rw [← Except.ok.inj ha]
    exact .object distinct h fun kind hkind => by rw [hm] at hkind; exact nomatch hkind
  · rw [hf] at ha
    cases hv with
    | string kind =>
        by_cases hkind : kind = Literal.kind
        · subst hkind
          obtain ⟨l, rfl, hl⟩ := repairedFrom_of_repairLiteral h (by simpa using ha)
          exact .literal distinct h.otherFields hm hl
        · obtain rfl : Value.node (.element kind) fields = value := by simpa [hkind] using ha
          exact .element distinct h hm hkind
    | _ =>
        rw [← Except.ok.inj ha]
        exact .object distinct h fun kind hkind => by rw [hm] at hkind; exact nomatch hkind

end Repair

/-! ## Decoding rebuilds -/

mutual

/-- A document that decodes holds a value, and the tree is what that value is rebuilt
to. -/
theorem Value.rebuilds_of_ofDoc {doc : Json.Doc} {value : Value}
    (h : Value.ofDoc doc = .ok value) :
    ∃ source, doc.value? = some source ∧ Rebuilds source value := by
  match doc with
  | .null => exact ⟨.null, rfl, Except.ok.inj h ▸ .null⟩
  | .bool b => exact ⟨.bool b, rfl, Except.ok.inj h ▸ .bool b⟩
  | .number (.ok n) => exact ⟨.number n, rfl, Except.ok.inj h ▸ .number n⟩
  | .number (.error fault) => exact nomatch h
  | .string (.ok s) => exact ⟨.string s, rfl, Except.ok.inj h ▸ .string s⟩
  | .string (.error fault) => exact nomatch h
  | .array items ending =>
      cases hitems : Value.ofDocs items with
      | error e => simp [Value.ofDoc, hitems, bind, Except.bind] at h
      | ok values =>
          cases ending with
          | cut stop =>
              simp [Value.ofDoc, hitems, bind, Except.bind, throw, throwThe,
                MonadExceptOf.throw] at h
          | closed unread =>
              obtain ⟨sources, hs, hr⟩ := Value.rebuilds_of_ofDocs hitems
              obtain rfl : Value.array values = value := by
                simpa [Value.ofDoc, hitems, bind, Except.bind, pure, Except.pure] using h
              exact ⟨.array sources, by simp [Json.Doc.value?, hs], .array hr⟩
  | .object members ending =>
      cases hmembers : Value.ofMembers members with
      | error e => simp [Value.ofDoc, hmembers, bind, Except.bind] at h
      | ok entries =>
          cases ending with
          | cut stop =>
              simp [Value.ofDoc, hmembers, bind, Except.bind, throw, throwThe,
                MonadExceptOf.throw] at h
          | closed unread =>
              obtain ⟨sources, hs, hr⟩ := Value.rebuilds_of_ofMembers hmembers
              cases ha : assemble (Fields.ofEntries entries) with
              | error e =>
                  simp [Value.ofDoc, hmembers, ha, bind, Except.bind, Except.mapError] at h
              | ok v =>
                  obtain rfl : v = value := by
                    simpa [Value.ofDoc, hmembers, ha, bind, Except.bind, Except.mapError] using h
                  exact ⟨.object (Fields.ofEntries sources), by simp [Json.Doc.value?, hs],
                    rebuilds_of_assemble (Fields.nodup_names_ofEntries sources) hr.ofEntries ha⟩
  | .broken first stop => exact nomatch h
  | .missing stop => exact nomatch h

theorem Value.rebuilds_of_ofDocs {docs : List Json.Doc} {values : List Value}
    (h : Value.ofDocs docs = .ok values) :
    ∃ sources, Json.Doc.values? docs = some sources ∧ RebuildsItems sources values := by
  match docs with
  | [] => exact ⟨[], rfl, Except.ok.inj h ▸ .nil⟩
  | doc :: docs =>
      cases hd : Value.ofDoc doc with
      | error e => simp [Value.ofDocs, hd, bind, Except.bind] at h
      | ok value =>
      cases hds : Value.ofDocs docs with
      | error e => simp [Value.ofDocs, hd, hds, bind, Except.bind] at h
      | ok rest =>
      obtain ⟨source, hs, hr⟩ := Value.rebuilds_of_ofDoc hd
      obtain ⟨sources, hss, hrs⟩ := Value.rebuilds_of_ofDocs hds
      obtain rfl : value :: rest = values := by
        simpa [Value.ofDocs, hd, hds, bind, Except.bind, pure, Except.pure] using h
      exact ⟨source :: sources, by simp [Json.Doc.values?, hs, hss], .cons hr hrs⟩

theorem Value.rebuilds_of_ofMembers {docs : List (Json.Key × Json.Doc)}
    {entries : List (String × Value)} (h : Value.ofMembers docs = .ok entries) :
    ∃ sources, Json.Doc.entries? docs = some sources ∧ RebuildsFields sources entries := by
  match docs with
  | [] => exact ⟨[], rfl, Except.ok.inj h ▸ .nil⟩
  | (key, doc) :: docs =>
      cases key with
      | error fault => simp [Value.ofMembers, bind, Except.bind, Except.mapError] at h
      | ok name =>
      cases hd : Value.ofDoc doc with
      | error e => simp [Value.ofMembers, hd, bind, Except.bind, Except.mapError] at h
      | ok value =>
      cases hds : Value.ofMembers docs with
      | error e => simp [Value.ofMembers, hd, hds, bind, Except.bind, Except.mapError] at h
      | ok rest =>
      obtain ⟨source, hs, hr⟩ := Value.rebuilds_of_ofDoc hd
      obtain ⟨sources, hss, hrs⟩ := Value.rebuilds_of_ofMembers hds
      obtain rfl : (name, value) :: rest = entries := by
        simpa [Value.ofMembers, hd, hds, bind, Except.bind, Except.mapError, pure,
          Except.pure] using h
      exact ⟨(name, source) :: sources, by simp [Json.Doc.entries?, hs, hss, Except.toOption],
        .cons hr hrs⟩

end

theorem rebuilds_of_decode {text : String} {node : Node} (h : decode text = .ok node) :
    ∃ source, Json.read? text = some source ∧ Rebuilds source (.node node.head node.fields) := by
  cases hvalue : Value.ofDoc (Json.Document.read text).root with
  | error e => simp [decode, hvalue, bind, Except.bind, Except.mapError] at h
  | ok value =>
  cases htrailing : (Json.Document.read text).trailingFault? with
  | some fault =>
      simp [decode, hvalue, htrailing, bind, Except.bind, Except.mapError, throw, throwThe,
        MonadExceptOf.throw] at h
  | none =>
  obtain ⟨source, hs, hr⟩ := Value.rebuilds_of_ofDoc hvalue
  refine ⟨source, by simp [Json.read?, htrailing, hs], ?_⟩
  cases value with
  | node head fields =>
      obtain rfl : (⟨head, fields⟩ : Node) = node := by
        simpa [decode, hvalue, htrailing, bind, Except.bind, Except.mapError, pure,
          Except.pure] using h
      exact hr
  | _ =>
      simp [decode, hvalue, htrailing, bind, Except.bind, Except.mapError, throw, throwThe,
        MonadExceptOf.throw] at h

end ParseView.Tree

/-! ## Paths into the value of a text -/

namespace ParseView.Json

def Value.step? : Tree.Step → Value → Option Value
  | .field name, .object fields => Fields.get? name fields
  | .item index, .array items => items[index]?
  | _, _ => none

def Value.path? (value : Value) (path : List Tree.Step) : Option Value :=
  path.foldlM (fun value step => value.step? step) value

/-- An object that names the kind of literals. -/
def Value.IsLiteral (value : Value) : Prop :=
  ∃ members, value = .object members ∧
    Fields.get? "type" members = some (.string Tree.Literal.kind)

/-- The path enters none of the parts that the value of a literal is made of. -/
def Value.IsKept (value : Value) : List Tree.Step → Prop
  | [] => True
  | step :: path =>
    (value.IsLiteral → ∀ part ∈ Tree.literalParts, step ≠ .field part) ∧
      ∀ next, value.step? step = some next → next.IsKept path

end ParseView.Json

namespace ParseView.Tree

def Node.toValue (node : Node) : Value := .node node.head node.fields

theorem get?_otherFields {α : Type} {name : String} {fields : Fields α} {value : α}
    (h : Fields.get? name (otherFields fields) = some value) :
    Fields.get? name fields = some value := by
  have herase {part : String} {fields : Fields α}
      (h : Fields.get? name (Fields.erase part fields) = some value) :
      Fields.get? name fields = some value := by
    by_cases hname : name = part
    · rw [hname, Fields.get?_erase_self] at h
      exact nomatch h
    · rwa [Fields.get?_erase_of_ne hname] at h
  exact herase (herase (herase (herase h)))

theorem nodup_names_otherFields {α : Type} {fields : Fields α}
    (h : (Fields.names fields).Nodup) : (Fields.names (otherFields fields)).Nodup :=
  Fields.nodup_names_erase (Fields.nodup_names_erase (Fields.nodup_names_erase
    (Fields.nodup_names_erase h _) _) _) _

theorem get?_otherFields_of_ne {α : Type} {name : String} (h : ∀ part ∈ literalParts, name ≠ part)
    (fields : Fields α) : Fields.get? name (otherFields fields) = Fields.get? name fields := by
  have hne (part : String) (hpart : part ∈ literalParts) (fields : Fields α) :
      Fields.get? name (Fields.erase part fields) = Fields.get? name fields :=
    Fields.get?_erase_of_ne (h part hpart) fields
  simp only [otherFields, literalParts, List.foldl_cons, List.foldl_nil]
  rw [hne "regex" (by decide), hne "bigint" (by decide), hne "raw" (by decide),
    hne "value" (by decide)]

theorem RebuildsItems.getElem? {items : List Json.Value} {values : List Value}
    (h : RebuildsItems items values) (index : Nat) :
    (items[index]? = none ∧ values[index]? = none) ∨
      ∃ item value, items[index]? = some item ∧ values[index]? = some value ∧
        Rebuilds item value := by
  induction values generalizing items index with
  | nil => cases h; exact .inl ⟨rfl, rfl⟩
  | cons first values ih =>
      cases h with
      | cons head tail =>
          cases index with
          | zero => exact .inr ⟨_, _, rfl, rfl, head⟩
          | succ index => simpa using ih tail index

section Lookup

variable {found : Option Json.Value} {kept : Option Value} {origin : Json.Value} {value : Value}
  (h : (found = none ∧ kept = none) ∨
    ∃ member value, found = some member ∧ kept = some value ∧ Rebuilds member value)

include h

theorem exists_source (hkept : kept = some value) :
    ∃ member, found = some member ∧ Rebuilds member value := by
  rcases h with ⟨-, hnone⟩ | ⟨member, other, hfound, hother, hr⟩
  · exact nomatch hnone.symm.trans hkept
  · exact ⟨member, hfound, Option.some.inj (hother.symm.trans hkept) ▸ hr⟩

theorem exists_value (hfound : found = some origin) :
    ∃ value, kept = some value ∧ Rebuilds origin value := by
  rcases h with ⟨hnone, -⟩ | ⟨other, value, hother, hkept, hr⟩
  · exact nomatch hnone.symm.trans hfound
  · exact ⟨value, hkept, Option.some.inj (hother.symm.trans hfound) ▸ hr⟩

end Lookup

/-- A step into the tree is a step into the value it was rebuilt from. -/
theorem Rebuilds.step {source : Json.Value} {value child : Value} {step : Step}
    (h : Rebuilds source value) (hs : value.step? step = some child) :
    ∃ origin, source.step? step = some origin ∧ Rebuilds origin child := by
  cases h with
  | null | bool b | number n | string s => cases step <;> exact nomatch hs
  | array h =>
      cases step with
      | field name => exact nomatch hs
      | item index => exact exists_source (h.getElem? index) hs
  | object distinct h unnamed =>
      cases step with
      | field name => exact exists_source (h.get? name) hs
      | item index => exact nomatch hs
  | element distinct h named other =>
      cases step with
      | field name => exact exists_source (h.get? name) hs
      | item index => exact nomatch hs
  | literal distinct h named repaired =>
      cases step with
      | field name =>
          obtain ⟨member, hm, hr⟩ := exists_source (h.get? name) hs
          exact ⟨member, get?_otherFields hm, hr⟩
      | item index => exact nomatch hs

theorem Rebuilds.path {source : Json.Value} {value child : Value} {path : List Step}
    (h : Rebuilds source value) (hp : value.path? path = some child) :
    ∃ origin, source.path? path = some origin ∧ Rebuilds origin child := by
  induction path generalizing source value with
  | nil =>
      obtain rfl : value = child := Option.some.inj hp
      exact ⟨source, rfl, h⟩
  | cons step path ih =>
      obtain ⟨next, hnext, hrest⟩ := Option.bind_eq_some_iff.mp hp
      obtain ⟨origin, ho, hr⟩ := h.step hnext
      obtain ⟨last, hlast, hr⟩ := ih hr hrest
      exact ⟨last, Option.bind_eq_some_iff.mpr ⟨origin, ho, hlast⟩, hr⟩

/-- A step into a value is a step into the tree, unless it enters a part of a literal. -/
theorem Rebuilds.step_value {source origin : Json.Value} {value : Value} {step : Step}
    (h : Rebuilds source value) (hs : source.step? step = some origin)
    (hkept : source.IsLiteral → ∀ part ∈ literalParts, step ≠ .field part) :
    ∃ child, value.step? step = some child ∧ Rebuilds origin child := by
  cases h with
  | null | bool b | number n | string s => cases step <;> exact nomatch hs
  | array h =>
      cases step with
      | field name => exact nomatch hs
      | item index => exact exists_value (h.getElem? index) hs
  | object distinct h unnamed =>
      cases step with
      | field name => exact exists_value (h.get? name) hs
      | item index => exact nomatch hs
  | element distinct h named other =>
      cases step with
      | field name => exact exists_value (h.get? name) hs
      | item index => exact nomatch hs
  | literal distinct h named repaired =>
      cases step with
      | field name =>
          have hne (part : String) (hpart : part ∈ literalParts) : name ≠ part :=
            fun heq => hkept ⟨_, rfl, named⟩ part hpart (congrArg Step.field heq)
          exact exists_value (h.get? name) ((get?_otherFields_of_ne hne _).trans hs)
      | item index => exact nomatch hs

theorem Rebuilds.path_value {source origin : Json.Value} {value : Value} {path : List Step}
    (h : Rebuilds source value) (hp : source.path? path = some origin)
    (hkept : source.IsKept path) :
    ∃ child, value.path? path = some child ∧ Rebuilds origin child := by
  induction path generalizing source value with
  | nil =>
      obtain rfl : source = origin := Option.some.inj hp
      exact ⟨value, rfl, h⟩
  | cons step path ih =>
      obtain ⟨next, hnext, hrest⟩ := Option.bind_eq_some_iff.mp hp
      obtain ⟨hstep, htail⟩ := hkept
      obtain ⟨child, hc, hr⟩ := h.step_value hnext hstep
      obtain ⟨last, hlast, hr⟩ := ih hr hrest (htail next hnext)
      exact ⟨last, Option.bind_eq_some_iff.mpr ⟨child, hc, hlast⟩, hr⟩

/-- Names of one object differ, so every field is found under its name. -/
theorem RebuildsFields.step_of_mem {members : Fields Json.Value} {fields : Fields Value}
    (h : RebuildsFields members fields) (distinct : (Fields.names members).Nodup)
    {name : String} {value : Value} (hv : (name, value) ∈ fields) :
    Fields.get? name fields = some value :=
  Fields.get?_of_mem (h.names_eq ▸ distinct) hv

mutual

/-- Every node below a value is where some path leads. -/
theorem Rebuilds.path_of_mem_nodes {source : Json.Value} {value : Value} {n : Node}
    (h : Rebuilds source value) (hn : n ∈ value.nodes) :
    ∃ path, value.path? path = some n.toValue := by
  match value, h with
  | .null, _ | .bool _, _ | .number _, _ | .string _, _ => exact nomatch hn
  | .array values, .array h =>
      obtain ⟨index, value, path, hv, hp⟩ := h.path_of_mem_nodes hn
      exact ⟨.item index :: path, Option.bind_eq_some_iff.mpr ⟨value, hv, hp⟩⟩
  | .object fields, .object distinct h unnamed =>
      obtain ⟨name, value, path, hv, hp⟩ := h.path_of_mem_nodes hn
      exact ⟨.field name :: path,
        Option.bind_eq_some_iff.mpr ⟨value, h.step_of_mem distinct hv, hp⟩⟩
  | .node (.element kind) fields, .element distinct h named other =>
      rcases List.mem_cons.mp hn with rfl | hn
      · exact ⟨[], rfl⟩
      · obtain ⟨name, value, path, hv, hp⟩ := h.path_of_mem_nodes hn
        exact ⟨.field name :: path,
          Option.bind_eq_some_iff.mpr ⟨value, h.step_of_mem distinct hv, hp⟩⟩
  | .node (.literal l) fields, .literal distinct h named repaired =>
      rcases List.mem_cons.mp hn with rfl | hn
      · exact ⟨[], rfl⟩
      · obtain ⟨name, value, path, hv, hp⟩ := h.path_of_mem_nodes hn
        exact ⟨.field name :: path, Option.bind_eq_some_iff.mpr
          ⟨value, h.step_of_mem (nodup_names_otherFields distinct) hv, hp⟩⟩

theorem RebuildsItems.path_of_mem_nodes {items : List Json.Value} {values : List Value}
    {n : Node} (h : RebuildsItems items values) (hn : n ∈ Value.nodesOfList values) :
    ∃ (index : Nat) (value : Value) (path : List Step), values[index]? = some value ∧
      value.path? path = some n.toValue := by
  match values, h with
  | [], _ => exact nomatch hn
  | value :: values, .cons head tail =>
      rcases List.mem_append.mp hn with hn | hn
      · obtain ⟨path, hp⟩ := head.path_of_mem_nodes hn
        exact ⟨0, value, path, rfl, hp⟩
      · obtain ⟨index, next, path, hv, hp⟩ := tail.path_of_mem_nodes hn
        exact ⟨index + 1, next, path, hv, hp⟩

theorem RebuildsFields.path_of_mem_nodes {members : Fields Json.Value} {fields : Fields Value}
    {n : Node} (h : RebuildsFields members fields) (hn : n ∈ Value.nodesOfFields fields) :
    ∃ (name : String) (value : Value) (path : List Step), (name, value) ∈ fields ∧
      value.path? path = some n.toValue := by
  match fields, h with
  | [], _ => exact nomatch hn
  | (name, value) :: fields, .cons head tail =>
      rcases List.mem_append.mp hn with hn | hn
      · obtain ⟨path, hp⟩ := head.path_of_mem_nodes hn
        exact ⟨name, value, path, List.mem_cons_self, hp⟩
      · obtain ⟨other, next, path, hv, hp⟩ := tail.path_of_mem_nodes hn
        exact ⟨other, next, path, List.mem_cons_of_mem _ hv, hp⟩

end

theorem Value.nodes_subset_nodesOfList {values : List Value} {value : Value}
    (h : value ∈ values) : value.nodes ⊆ nodesOfList values := by
  induction values with
  | nil => exact absurd h List.not_mem_nil
  | cons first values ih =>
      rw [nodesOfList]
      rcases List.mem_cons.mp h with rfl | h
      · exact List.subset_append_left _ _
      · exact List.Subset.trans (ih h) (List.subset_append_right _ _)

theorem Value.nodes_subset_nodesOfFields {fields : Fields Value} {name : String} {value : Value}
    (h : Fields.get? name fields = some value) : value.nodes ⊆ nodesOfFields fields := by
  induction fields with
  | nil => exact nomatch h
  | cons field fields ih =>
      obtain ⟨key, first⟩ := field
      rw [Fields.get?] at h
      rw [nodesOfFields]
      split at h
      · obtain rfl := Option.some.inj h
        exact List.subset_append_left _ _
      · exact List.Subset.trans (ih h) (List.subset_append_right _ _)

theorem Value.nodes_subset_of_step {value child : Value} {step : Step}
    (h : value.step? step = some child) : child.nodes ⊆ value.nodes := by
  cases value with
  | null | bool b | number n | string s => cases step <;> exact nomatch h
  | array values =>
      cases step with
      | field name => exact nomatch h
      | item index => exact nodes_subset_nodesOfList (List.mem_of_getElem? h)
  | object fields =>
      cases step with
      | field name => exact nodes_subset_nodesOfFields h
      | item index => exact nomatch h
  | node head fields =>
      cases step with
      | field name => exact List.Subset.trans (nodes_subset_nodesOfFields h) (List.subset_cons_self _ _)
      | item index => exact nomatch h

/-- A walk passes every node that a path leads to. -/
theorem Value.mem_nodes_of_path {value : Value} {path : List Step} {n : Node}
    (h : value.path? path = some n.toValue) : n ∈ value.nodes := by
  induction path generalizing value with
  | nil =>
      obtain rfl : value = n.toValue := Option.some.inj h
      exact List.mem_cons_self
  | cons step path ih =>
      obtain ⟨next, hnext, hrest⟩ := Option.bind_eq_some_iff.mp h
      exact nodes_subset_of_step hnext (ih hrest)

/-- The literals of a tree are the objects that name their kind, and only these. -/
theorem Rebuilds.isLiteral_iff {source : Json.Value} {value : Value} (h : Rebuilds source value) :
    source.IsLiteral ↔ ∃ l fields, value = .node (.literal l) fields := by
  constructor
  · rintro ⟨members, rfl, hkind⟩
    cases h with
    | object distinct h unnamed => exact absurd hkind (unnamed Literal.kind)
    | element distinct h named other =>
        rw [named] at hkind
        cases hkind
        exact absurd rfl other
    | literal distinct h named repaired => exact ⟨_, _, rfl⟩
  · rintro ⟨l, fields, rfl⟩
    cases h with
    | literal distinct h named repaired => exact ⟨_, rfl, named⟩

/-- Repair reaches every literal of a program, wherever it lies, and rewrites nothing but
literals. From the tree to the text: every node is where a path leads, each path leads in
the text to the object the node was read from, and a literal is what that object says.
From the text to the tree: a path that enters no part of a literal leads on into the tree,
and where it leads to an object of literal kind, the walk meets the literal that this
object is repaired to. -/
theorem decode_repairs_literals {text : String} {node : Node} (h : decode text = .ok node) :
    ∃ source, Json.read? text = some source ∧
      (∀ n ∈ node.walk, ∃ path, node.toValue.path? path = some n.toValue) ∧
      (∀ path value, node.toValue.path? path = some value →
        ∃ origin, source.path? path = some origin ∧
          (origin.IsLiteral ↔ ∃ l fields, value = .node (.literal l) fields) ∧
          ∀ l fields, value = .node (.literal l) fields →
            ∃ members, origin = .object members ∧ l.RepairedFrom members) ∧
      ∀ path origin, source.path? path = some origin → source.IsKept path →
        (∃ value, node.toValue.path? path = some value) ∧
          ∀ members, origin = .object members → origin.IsLiteral →
            ∃ l fields, node.toValue.path? path = some (.node (.literal l) fields) ∧
              ⟨.literal l, fields⟩ ∈ node.walk ∧ l.RepairedFrom members := by
  obtain ⟨source, hs, hr⟩ := rebuilds_of_decode h
  refine ⟨source, hs, fun n hn => hr.path_of_mem_nodes hn, fun path value hp => ?_,
    fun path origin hp hkept => ?_⟩
  · obtain ⟨origin, ho, hr⟩ := hr.path hp
    refine ⟨origin, ho, hr.isLiteral_iff, ?_⟩
    rintro l fields rfl
    cases hr with
    | literal distinct h named repaired => exact ⟨_, rfl, repaired⟩
  · obtain ⟨value, hv, hr⟩ := hr.path_value hp hkept
    refine ⟨⟨value, hv⟩, ?_⟩
    rintro members rfl hliteral
    obtain ⟨l, fields, rfl⟩ := hr.isLiteral_iff.mp hliteral
    cases hr with
    | literal distinct h named repaired =>
        exact ⟨l, fields, hv, Value.mem_nodes_of_path (n := ⟨.literal l, fields⟩) hv, repaired⟩

/-- A program with a big integer beside which stands the source of a regular expression. -/
def bigintBesideRegex : Json.Value :=
  .object [("type", .string "Program"), ("body", .array [.object
    [("type", .string "Literal"), ("bigint", .string "0x1F"),
      ("regex", .object [("pattern", .string "a"), ("flags", .string "g")])]])]

/-- The same program, its literal repaired. -/
def bigintRestored : Node :=
  ⟨.element "Program", [("type", .string "Program"), ("body", .array [.node
    (.literal ⟨.bigint 31, none, some "0x1F", some ⟨"a", "g"⟩⟩) [("type", .string "Literal")]])]⟩

/-- The literal is met on the walk, and the numeral comes first: it is thirty-one. -/
theorem decode_repairs_bigintBesideRegex :
    decode bigintBesideRegex.text = .ok bigintRestored ∧
    Json.read? bigintBesideRegex.text = some bigintBesideRegex ∧
    ∃ l fields members,
      bigintBesideRegex.path? [.field "body", .item 0] = some (.object members) ∧
      bigintRestored.toValue.path? [.field "body", .item 0] = some (.node (.literal l) fields) ∧
      ⟨.literal l, fields⟩ ∈ bigintRestored.walk ∧ l.RepairedFrom members ∧
      l.value = .bigint 31 := by
  have hdecode : decode bigintBesideRegex.text = .ok bigintRestored := by cbv
  have hread : Json.read? bigintBesideRegex.text = some bigintBesideRegex := by cbv
  obtain ⟨source, hs, -, -, hkeep⟩ := decode_repairs_literals hdecode
  obtain rfl : bigintBesideRegex = source := Option.some.inj (hread.symm.trans hs)
  -- The body of a program is no part of a literal, and neither is an item of a list.
  have hkept : bigintBesideRegex.IsKept [.field "body", .item 0] := by
    refine ⟨fun _ part hpart heq => ?_, fun next hnext => ⟨?_, fun _ _ => trivial⟩⟩
    · rw [← Step.field.inj heq] at hpart
      exact absurd hpart (by decide)
    · exact fun _ part _ => by simp
  obtain ⟨l, fields, hl, hwalk, hrepaired⟩ := (hkeep _ _ rfl hkept).2 _ rfl ⟨_, rfl, rfl⟩
  refine ⟨hdecode, hread, l, fields, _, rfl, hl, hwalk, hrepaired, ?_⟩
  obtain ⟨⟨rfl⟩, -⟩ := Value.node.inj (Option.some.inj hl)
  rfl

end ParseView.Tree
