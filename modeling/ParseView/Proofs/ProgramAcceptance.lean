import ParseView.Proofs.LiteralRepair
import ParseView.Proofs.RecordReading

/-!
# Which programs are accepted

A text is a program if it is one value, if that value is an object that names a kind, and
if every literal in it is sound. The objects that are looked at are those of the text:
one that stands under a key which is set again later is decoded like any other before it
is dropped, so it is kept here (`Doc.written?`), and a field of an object is what its
name was last set to.

What a literal's object must be is said by `SoundLiteral`, in terms of the text alone.
Regular expressions do not come into it: of a source only the form matters, since one
that cannot be compiled is a null.
-/

namespace ParseView

/-- What a name was last set to. -/
def Fields.last? {α : Type} (name : String) (fields : Fields α) : Option α :=
  get? name fields.reverse

namespace Fields

variable {α : Type}

theorem last?_cons (name : String) (field : String × α) (fields : Fields α) :
    last? name (field :: fields) =
      (last? name fields).or (if field.1 = name then some field.2 else none) := by
  rw [last?, List.reverse_cons, get?_append, get?, get?, last?]

theorem get?_ofEntries (name : String) (entries : Fields α) :
    get? name (ofEntries entries) = last? name entries := by
  have hfold (fields : Fields α) :
      get? name (entries.foldl (fun fields entry => insert entry.1 entry.2 fields) fields) =
        (last? name entries).or (get? name fields) := by
    induction entries generalizing fields with
    | nil => rfl
    | cons entry entries ih =>
        rw [List.foldl_cons, ih, last?_cons, Option.or_assoc]
        by_cases h : entry.1 = name
        · rw [if_pos h, h, get?_insert_self, Option.some_or]
        · rw [if_neg h, get?_insert_of_ne (Ne.symm h), Option.none_or]
  rw [ofEntries, hfold, get?, Option.or_none]

end Fields

/-! ## Values as they are written -/

namespace Json

mutual

/-- The value of a document that was read to its end without a fault, with all members
of its objects. -/
def Doc.written? : Doc → Option Value
  | .null => some .null
  | .bool b => some (.bool b)
  | .number n => n.toOption.map .number
  | .string s => s.toOption.map .string
  | .array items (.closed _) => (Doc.writtenItems? items).map .array
  | .object members (.closed _) => (Doc.writtenMembers? members).map .object
  | _ => none

def Doc.writtenItems? : List Doc → Option (List Value)
  | [] => some []
  | item :: rest => do
    let item ← Doc.written? item
    let rest ← Doc.writtenItems? rest
    return item :: rest

def Doc.writtenMembers? : List (Key × Doc) → Option (List (String × Value))
  | [] => some []
  | (key, doc) :: rest => do
    let key ← key.toOption
    let value ← Doc.written? doc
    let rest ← Doc.writtenMembers? rest
    return (key, value) :: rest

end

/-- The value that a text holds if all of it is in order, with all members. -/
def written? (text : String) : Option Value :=
  let document := Document.read text
  match document.trailingFault? with
  | none => document.root.written?
  | some _ => none

mutual

/-- The objects in a value at every depth, each as its members. -/
def Value.objects : Value → List (Fields Value)
  | .array items => Value.objectsOfItems items
  | .object members => members :: Value.objectsOfMembers members
  | _ => []

def Value.objectsOfItems : List Value → List (Fields Value)
  | [] => []
  | item :: items => Value.objects item ++ Value.objectsOfItems items

def Value.objectsOfMembers : List (String × Value) → List (Fields Value)
  | [] => []
  | (_, value) :: members => Value.objects value ++ Value.objectsOfMembers members

end

mutual

/-- The value when names that are set again keep their place and their last value. -/
def Value.resolved : Value → Value
  | .array items => .array (Value.resolvedItems items)
  | .object members => .object (Fields.ofEntries (Value.resolvedMembers members))
  | other => other

def Value.resolvedItems : List Value → List Value
  | [] => []
  | item :: items => Value.resolved item :: Value.resolvedItems items

def Value.resolvedMembers : List (String × Value) → List (String × Value)
  | [] => []
  | (name, value) :: members => (name, Value.resolved value) :: Value.resolvedMembers members

end

theorem Value.last?_resolvedMembers (name : String) (members : Fields Value) :
    Fields.last? name (resolvedMembers members) =
      (Fields.last? name members).map resolved := by
  induction members with
  | nil => rfl
  | cons member members ih =>
      obtain ⟨key, value⟩ := member
      rw [resolvedMembers, Fields.last?_cons, Fields.last?_cons, ih]
      cases Fields.last? name members <;> by_cases h : key = name <;> simp [h]

theorem Value.get?_resolved (name : String) (members : Fields Value) :
    Fields.get? name (Fields.ofEntries (resolvedMembers members)) =
      (Fields.last? name members).map resolved := by
  rw [Fields.get?_ofEntries, last?_resolvedMembers]

/-- A name is kept by strings, so that resolving changes no kind. -/
theorem Value.get?_resolved_eq_string {name s : String} {members : Fields Value} :
    Fields.get? name (Fields.ofEntries (resolvedMembers members)) = some (.string s) ↔
      Fields.last? name members = some (.string s) := by
  rw [get?_resolved]
  cases Fields.last? name members with
  | none => exact iff_of_false nofun nofun
  | some w => cases w <;> simp [resolved]

mutual

theorem Doc.value?_eq (doc : Doc) : doc.value? = doc.written?.map Value.resolved := by
  match doc with
  | .null => rfl
  | .bool b => rfl
  | .number n => cases n <;> rfl
  | .string s => cases s <;> rfl
  | .array items (.closed _) =>
      rw [Doc.value?, Doc.written?, Doc.values?_eq items, Option.map_map, Option.map_map]
      rfl
  | .array items (.cut _) => rfl
  | .object members (.closed _) =>
      rw [Doc.value?, Doc.written?, Doc.entries?_eq members, Option.map_map, Option.map_map]
      rfl
  | .object members (.cut _) => rfl
  | .broken _ _ => rfl
  | .missing _ => rfl

theorem Doc.values?_eq (items : List Doc) :
    Doc.values? items = (Doc.writtenItems? items).map Value.resolvedItems := by
  match items with
  | [] => rfl
  | item :: items =>
      rw [Doc.values?, Doc.writtenItems?, Doc.value?_eq item, Doc.values?_eq items]
      cases item.written? <;> cases Doc.writtenItems? items <;> rfl

theorem Doc.entries?_eq (members : List (Key × Doc)) :
    Doc.entries? members = (Doc.writtenMembers? members).map Value.resolvedMembers := by
  match members with
  | [] => rfl
  | (key, doc) :: members =>
      rw [Doc.entries?, Doc.writtenMembers?, Doc.value?_eq doc, Doc.entries?_eq members]
      cases key <;> cases doc.written? <;> cases Doc.writtenMembers? members <;> rfl

end

mutual

theorem Value.written?_doc (v : Value) (rest : List Char) : (v.doc rest).written? = some v := by
  match v with
  | .null | .bool _ | .number _ | .string _ => rfl
  | .array items =>
      rw [Value.doc, Doc.written?, Value.writtenItems?_docs items rest]
      rfl
  | .object members =>
      rw [Value.doc, Doc.written?, Value.writtenMembers?_memberDocs members rest]
      rfl

theorem Value.writtenItems?_docs (items : List Value) (rest : List Char) :
    Doc.writtenItems? (docs items rest) = some items := by
  match items with
  | [] => rfl
  | item :: items =>
      rw [docs, Doc.writtenItems?, Value.written?_doc item, Value.writtenItems?_docs items]
      rfl

theorem Value.writtenMembers?_memberDocs (members : List (String × Value)) (rest : List Char) :
    Doc.writtenMembers? (memberDocs members rest) = some members := by
  match members with
  | [] => rfl
  | (name, value) :: members =>
      rw [memberDocs, Doc.writtenMembers?, Value.written?_doc value,
        Value.writtenMembers?_memberDocs members]
      rfl

end

/-- What the text of a value is read as, also if it repeats names. -/
theorem written?_text {v : Value} (h : v.Scans) : written? v.text = some v := by
  have hvalue := v.written?_doc []
  simp [written?, Document.read_text v h, Document.trailingFault?, skipBlank, hvalue]

end Json

namespace Tree

section Answers

variable {ε ε' α β γ : Type}

/-- A computation in two steps succeeds if the first one does and then the second. -/
theorem bind_isOk_iff {x : Except ε α} {f : α → Except ε β} :
    (∃ b, (x >>= f) = .ok b) ↔ ∃ a, x = .ok a ∧ ∃ b, f a = .ok b := by
  cases x <;> simp [bind, Except.bind]

theorem not_isOk_error (e : ε) : ¬ ∃ b, (.error e : Except ε β) = .ok b :=
  fun ⟨_, h⟩ => nomatch h

/-- Two results are put together if there are both. -/
theorem both_isOk_iff {x : Except ε α} {y : Except ε β} {f : α → β → γ} :
    (∃ c, (do let a ← x; let b ← y; return f a b) = .ok c) ↔
      (∃ a, x = .ok a) ∧ ∃ b, y = .ok b := by
  cases x <;> cases y <;> simp [bind, Except.bind, pure, Except.pure]

/-- The same where what is asked of the whole is asked of its two parts. -/
theorem both_some_iff {x : Option α} {y : Option β} {f : α → β → γ} {p : α → Prop}
    {q : β → Prop} {r : γ → Prop} (h : ∀ a b, r (f a b) ↔ p a ∧ q b) :
    (∃ c, (do let a ← x; let b ← y; return f a b) = some c ∧ r c) ↔
      (∃ a, x = some a ∧ p a) ∧ ∃ b, y = some b ∧ q b := by
  cases x <;> cases y <;> simp [h]

theorem mapError_eq_ok_iff {x : Except ε α} {f : ε → ε'} {a : α} :
    x.mapError f = .ok a ↔ x = .ok a := by
  cases x <;> simp [Except.mapError]

end Answers

/-! ## Sound literals -/

/-- A source beside a literal, which may be missing or null. An object that names a kind
is a node and no source. -/
inductive WrittenSource : Option Json.Value → Prop where
  | absent : WrittenSource none
  | null : WrittenSource (some .null)
  | source {members : Fields Json.Value} {pattern flags : String}
      (unnamed : ∀ kind, Fields.last? "type" members ≠ some (.string kind))
      (hpattern : Fields.last? "pattern" members = some (.string pattern))
      (hflags : Fields.last? "flags" members = some (.string flags)) :
      WrittenSource (some (.object members))

/-- A value that can stand in a literal. -/
def IsPrimitive : Json.Value → Prop
  | .null | .bool _ | .number _ | .string _ => True
  | .array _ | .object _ => False

/-- What the members of an object of literal kind must be. The numeral matters only if
it is needed, which is when no other value is given. -/
structure SoundLiteral (members : Fields Json.Value) : Prop where
  raw : ∃ text, SideText (Fields.last? "raw" members) text
  bigint : ∃ text, SideText (Fields.last? "bigint" members) text
  regex : WrittenSource (Fields.last? "regex" members)
  value : IsPrimitive ((Fields.last? "value" members).getD .null)
  numeral : (Fields.last? "value" members).getD .null = .null →
    ∀ numeral, Fields.last? "bigint" members = some (.string numeral) →
      ∃ n, Denotes numeral.toList n

/-- All objects of literal kind in a value are sound, wherever they stand. -/
def SoundLiterals (objects : List (Fields Json.Value)) : Prop :=
  ∀ members ∈ objects,
    Fields.last? "type" members = some (.string Literal.kind) → SoundLiteral members

theorem soundLiterals_cons {members : Fields Json.Value} {objects : List (Fields Json.Value)} :
    SoundLiterals (members :: objects) ↔
      (Fields.last? "type" members = some (.string Literal.kind) → SoundLiteral members) ∧
        SoundLiterals objects :=
  List.forall_mem_cons

theorem soundLiterals_append {objects more : List (Fields Json.Value)} :
    SoundLiterals (objects ++ more) ↔ SoundLiterals objects ∧ SoundLiterals more :=
  List.forall_mem_append

/-! ## Fields of decoded objects -/

/-- The fields of an object that was decoded from these members. -/
abbrev DecodedFrom (members : Fields Json.Value) (fields : Fields Value) : Prop :=
  RebuildsFields (Fields.ofEntries (Json.Value.resolvedMembers members)) fields

section Members

variable {members : Fields Json.Value} {fields : Fields Value}

/-- A field of the object is what the member was last set to. -/
theorem DecodedFrom.last? (h : DecodedFrom members fields) (name : String) :
    (Fields.last? name members = none ∧ Fields.get? name fields = none) ∨
      ∃ w value, Fields.last? name members = some w ∧
        Fields.get? name fields = some value ∧ Rebuilds w.resolved value := by
  rcases RebuildsFields.get? h name with ⟨hm, hf⟩ | ⟨member, value, hm, hf, hr⟩
  · rw [Json.Value.get?_resolved] at hm
    exact .inl ⟨Option.map_eq_none_iff.mp hm, hf⟩
  · rw [Json.Value.get?_resolved] at hm
    obtain ⟨w, hw, rfl⟩ := Option.map_eq_some_iff.mp hm
    exact .inr ⟨w, value, hw, hf, hr⟩

/-- Strings are decoded from strings only. -/
theorem DecodedFrom.string_iff (h : DecodedFrom members fields) (name s : String) :
    Fields.get? name fields = some (.string s) ↔
      Fields.last? name members = some (.string s) := by
  rcases h.last? name with ⟨hm, hf⟩ | ⟨w, value, hm, hf, hr⟩
  · rw [hm, hf]
    exact iff_of_false nofun nofun
  · rw [hm, hf]
    cases w <;> cases hr <;> simp

theorem optionalText_iff {error : Shape → LiteralError} (h : DecodedFrom members fields)
    (name : String) (text : Option String) :
    optionalText error (Fields.get? name fields) = .ok text ↔
      SideText (Fields.last? name members) text := by
  rcases h.last? name with ⟨hm, hf⟩ | ⟨w, value, hm, hf, hr⟩
  · rw [hm, hf]
    exact ⟨fun h => Except.ok.inj h ▸ .absent, fun | .absent => rfl⟩
  · rw [hm, hf]
    cases w <;> cases hr
    case null => exact ⟨fun h => Except.ok.inj h ▸ .null, fun | .null => rfl⟩
    case string s => exact ⟨fun h => Except.ok.inj h ▸ .text s, fun | .text _ => rfl⟩
    all_goals exact iff_of_false nofun nofun

theorem regexPart_iff (h : DecodedFrom members fields) (part s : String) :
    regexPart fields part = .ok s ↔ Fields.last? part members = some (.string s) := by
  rw [← h.string_iff, regexPart]
  split
  · next t ht => simp [ht]
  · next ht => simpa using ht s

theorem optionalRegex_iff (h : DecodedFrom members fields) :
    (∃ source, optionalRegex (Fields.get? "regex" fields) = .ok source) ↔
      WrittenSource (Fields.last? "regex" members) := by
  rcases h.last? "regex" with ⟨hm, hf⟩ | ⟨w, value, hm, hf, hr⟩
  · rw [hm, hf]
    exact iff_of_true ⟨none, rfl⟩ .absent
  · rw [hm, hf]
    cases w with
    | null =>
        cases hr
        exact iff_of_true ⟨none, rfl⟩ .null
    | object source =>
        cases hr with
        | object distinct hparts unnamed =>
            rw [optionalRegex, bind_isOk_iff]
            constructor
            · rintro ⟨pattern, hpattern, hrest⟩
              obtain ⟨flags, hflags, -⟩ := bind_isOk_iff.mp hrest
              exact .source (fun kind hkind => unnamed kind
                  (Json.Value.get?_resolved_eq_string.mpr hkind))
                ((regexPart_iff hparts _ _).mp hpattern) ((regexPart_iff hparts _ _).mp hflags)
            · rintro (_ | _ | ⟨-, hpattern, hflags⟩)
              exact ⟨_, (regexPart_iff hparts _ _).mpr hpattern, bind_isOk_iff.mpr
                ⟨_, (regexPart_iff hparts _ _).mpr hflags, _, rfl⟩⟩
        | element distinct hparts named other =>
            refine iff_of_false (not_isOk_error _) ?_
            rintro (_ | _ | ⟨unnamed, -, -⟩)
            exact unnamed _ (Json.Value.get?_resolved_eq_string.mp named)
        | literal distinct hparts named repaired =>
            refine iff_of_false (not_isOk_error _) ?_
            rintro (_ | _ | ⟨unnamed, -, -⟩)
            exact unnamed _ (Json.Value.get?_resolved_eq_string.mp named)
    | _ =>
        cases hr
        exact iff_of_false (not_isOk_error _) (by rintro ⟨⟩)

/-- A numeral that is needed must denote a number; a source may say anything. -/
theorem restoredValue_iff (bigint : Option String) (regex : Option Regexp.Source) :
    (∃ value, restoredValue bigint regex = .ok value) ↔
      ∀ numeral, bigint = some numeral → ∃ n, Denotes numeral.toList n := by
  cases bigint with
  | some numeral =>
      simp only [restoredValue, Option.some.injEq, forall_eq', ← numeralValue?_eq_some_iff]
      cases numeralValue? numeral.toList <;> simp
  | none =>
      refine iff_of_true ?_ (by simp)
      cases regex with
      | none => exact ⟨_, rfl⟩
      | some source =>
          rw [restoredValue]
          cases Regexp.compile? source <;> exact ⟨_, rfl⟩

theorem SideText.eq_some_iff {given : Option Json.Value} {text : Option String}
    (h : SideText given text) (s : String) : text = some s ↔ given = some (.string s) := by
  cases h <;> simp

theorem literalValue_iff (h : DecodedFrom members fields) {bigint : Option String}
    (hbigint : SideText (Fields.last? "bigint" members) bigint) (regex : Option Regexp.Source) :
    (∃ value, literalValue ((Fields.get? "value" fields).getD .null) bigint regex = .ok value) ↔
      IsPrimitive ((Fields.last? "value" members).getD .null) ∧
        ((Fields.last? "value" members).getD .null = .null →
          ∀ numeral, Fields.last? "bigint" members = some (.string numeral) →
            ∃ n, Denotes numeral.toList n) := by
  have hnull : (∃ value, restoredValue bigint regex = .ok value) ↔
      ∀ numeral, Fields.last? "bigint" members = some (.string numeral) →
        ∃ n, Denotes numeral.toList n := by
    simp only [restoredValue_iff, hbigint.eq_some_iff]
  rcases h.last? "value" with ⟨hm, hf⟩ | ⟨w, value, hm, hf, hr⟩
  · rw [hm, hf]
    simpa [literalValue, IsPrimitive] using hnull
  · rw [hm, hf]
    cases w <;> cases hr <;> simp [literalValue, IsPrimitive, hnull]

theorem repairLiteral_iff (h : DecodedFrom members fields) :
    (∃ value, repairLiteral fields = .ok value) ↔ SoundLiteral members := by
  rw [repairLiteral, bind_isOk_iff]
  constructor
  · rintro ⟨raw, hraw, hrest⟩
    obtain ⟨bigint, hbigint, hrest⟩ := bind_isOk_iff.mp hrest
    obtain ⟨regex, hregex, hrest⟩ := bind_isOk_iff.mp hrest
    obtain ⟨value, hvalue, -⟩ := bind_isOk_iff.mp hrest
    rw [optionalText_iff h] at hraw hbigint
    have hvalues := (literalValue_iff h hbigint regex).mp ⟨value, hvalue⟩
    exact ⟨⟨raw, hraw⟩, ⟨bigint, hbigint⟩, (optionalRegex_iff h).mp ⟨regex, hregex⟩,
      hvalues.1, hvalues.2⟩
  · rintro ⟨⟨raw, hraw⟩, ⟨bigint, hbigint⟩, hregex, hprimitive, hnumeral⟩
    obtain ⟨regex, hregex⟩ := (optionalRegex_iff h).mpr hregex
    obtain ⟨value, hvalue⟩ := (literalValue_iff h hbigint regex).mpr ⟨hprimitive, hnumeral⟩
    refine ⟨raw, (optionalText_iff h _ _).mpr hraw, bind_isOk_iff.mpr ⟨bigint, ?_, ?_⟩⟩
    · exact (optionalText_iff h _ _).mpr hbigint
    · exact bind_isOk_iff.mpr ⟨regex, hregex, bind_isOk_iff.mpr ⟨value, hvalue, _, rfl⟩⟩

/-- An object is refused only if it names the kind of literals and is not sound. -/
theorem assemble_iff (h : DecodedFrom members fields) :
    (∃ value, assemble fields = .ok value) ↔
      (Fields.last? "type" members = some (.string Literal.kind) → SoundLiteral members) := by
  rw [assemble]
  split
  · next kind hkind =>
      have hlast : Fields.last? "type" members = some (.string kind) :=
        (h.string_iff _ _).mp hkind
      rw [hlast]
      by_cases hl : kind = Literal.kind
      · rw [if_pos hl, repairLiteral_iff h, hl]
        exact ⟨fun hs _ => hs, fun hs => hs rfl⟩
      · rw [if_neg hl]
        exact iff_of_true ⟨_, rfl⟩ fun heq => absurd (by simpa using heq) hl
  · next hunnamed =>
      refine iff_of_true ⟨_, rfl⟩ fun hlast => ?_
      exact absurd ((h.string_iff _ _).mpr hlast) (hunnamed _)

end Members

/-! ## Documents that decode -/

theorem decodedFrom_of_ofMembers {docs : List (Json.Key × Json.Doc)}
    {entries : List (String × Value)} {members : Fields Json.Value}
    (h : Value.ofMembers docs = .ok entries)
    (hm : Json.Doc.writtenMembers? docs = some members) :
    DecodedFrom members (Fields.ofEntries entries) := by
  obtain ⟨sources, hs, hr⟩ := Value.rebuilds_of_ofMembers h
  rw [Json.Doc.entries?_eq, hm, Option.map_some] at hs
  rw [← Option.some.inj hs] at hr
  exact hr.ofEntries

mutual

/-- A document decodes if it was read to its end and all literals in it are sound. -/
theorem Value.ofDoc_isOk_iff (doc : Json.Doc) :
    (∃ value, Value.ofDoc doc = .ok value) ↔
      ∃ w, doc.written? = some w ∧ SoundLiterals w.objects := by
  match doc with
  | .null => exact iff_of_true ⟨_, rfl⟩ ⟨.null, rfl, nofun⟩
  | .bool b => exact iff_of_true ⟨_, rfl⟩ ⟨.bool b, rfl, nofun⟩
  | .number (.ok n) => exact iff_of_true ⟨_, rfl⟩ ⟨.number n, rfl, nofun⟩
  | .number (.error fault) => exact iff_of_false nofun nofun
  | .string (.ok s) => exact iff_of_true ⟨_, rfl⟩ ⟨.string s, rfl, nofun⟩
  | .string (.error fault) => exact iff_of_false nofun nofun
  | .broken first stop => exact iff_of_false nofun nofun
  | .missing stop => exact iff_of_false nofun nofun
  | .array items (.cut stop) =>
      rw [Value.ofDoc, bind_isOk_iff]
      exact iff_of_false (fun ⟨_, _, _, h⟩ => nomatch h) nofun
  | .array items (.closed unread) =>
      rw [Value.ofDoc, bind_isOk_iff, Json.Doc.written?]
      constructor
      · rintro ⟨values, hvalues, -⟩
        obtain ⟨ws, hws, hsound⟩ := (Value.ofDocs_isOk_iff items).mp ⟨values, hvalues⟩
        exact ⟨.array ws, congrArg (Option.map Json.Value.array) hws, hsound⟩
      · rintro ⟨w, hw, hsound⟩
        obtain ⟨ws, hws, rfl⟩ := Option.map_eq_some_iff.mp hw
        obtain ⟨values, hvalues⟩ := (Value.ofDocs_isOk_iff items).mpr ⟨ws, hws, hsound⟩
        exact ⟨values, hvalues, _, rfl⟩
  | .object docs (.cut stop) =>
      rw [Value.ofDoc, bind_isOk_iff]
      exact iff_of_false (fun ⟨_, _, _, h⟩ => nomatch h) nofun
  | .object docs (.closed unread) =>
      simp only [Value.ofDoc, bind_isOk_iff, mapError_eq_ok_iff, Json.Doc.written?]
      constructor
      · rintro ⟨entries, hentries, hvalue⟩
        obtain ⟨members, hm, hsound⟩ := (Value.ofMembers_isOk_iff docs).mp ⟨entries, hentries⟩
        have hdecoded := decodedFrom_of_ofMembers hentries hm
        refine ⟨.object members, congrArg (Option.map Json.Value.object) hm, ?_⟩
        exact soundLiterals_cons.mpr ⟨(assemble_iff hdecoded).mp hvalue, hsound⟩
      · rintro ⟨w, hw, hsound⟩
        obtain ⟨members, hm, rfl⟩ := Option.map_eq_some_iff.mp hw
        obtain ⟨hself, hinside⟩ := soundLiterals_cons.mp hsound
        obtain ⟨entries, hentries⟩ := (Value.ofMembers_isOk_iff docs).mpr ⟨members, hm, hinside⟩
        have hdecoded := decodedFrom_of_ofMembers hentries hm
        exact ⟨entries, hentries, (assemble_iff hdecoded).mpr hself⟩

theorem Value.ofDocs_isOk_iff (docs : List Json.Doc) :
    (∃ values, Value.ofDocs docs = .ok values) ↔
      ∃ items, Json.Doc.writtenItems? docs = some items ∧
        SoundLiterals (Json.Value.objectsOfItems items) := by
  match docs with
  | [] => exact iff_of_true ⟨_, rfl⟩ ⟨[], rfl, nofun⟩
  | doc :: docs =>
      rw [Value.ofDocs, both_isOk_iff, Value.ofDoc_isOk_iff doc, Value.ofDocs_isOk_iff docs,
        Json.Doc.writtenItems?]
      refine (both_some_iff fun w ws => ?_).symm
      exact soundLiterals_append

theorem Value.ofMembers_isOk_iff (docs : List (Json.Key × Json.Doc)) :
    (∃ entries, Value.ofMembers docs = .ok entries) ↔
      ∃ members, Json.Doc.writtenMembers? docs = some members ∧
        SoundLiterals (Json.Value.objectsOfMembers members) := by
  match docs with
  | [] => exact iff_of_true ⟨_, rfl⟩ ⟨[], rfl, nofun⟩
  | (.error fault, doc) :: docs =>
      exact iff_of_false nofun nofun
  | (.ok name, doc) :: docs =>
      -- A name that was read is there, so that only the value and the rest can fail.
      show (∃ entries, (do
          let value ← Value.ofDoc doc
          let rest ← Value.ofMembers docs
          return (name, value) :: rest) = .ok entries) ↔
        ∃ members, (do
          let value ← doc.written?
          let rest ← Json.Doc.writtenMembers? docs
          return (name, value) :: rest) = some members ∧ _
      rw [both_isOk_iff, Value.ofDoc_isOk_iff doc, Value.ofMembers_isOk_iff docs]
      refine (both_some_iff fun w ws => ?_).symm
      exact soundLiterals_append

end

/-! ## Programs -/

/-- An object that names a kind, which is what the root of a program must be. -/
def NamesKind (w : Json.Value) : Prop :=
  ∃ members kind, w = .object members ∧ Fields.last? "type" members = some (.string kind)

/-- The nodes of a tree are the objects that name a kind, and only these. -/
theorem Rebuilds.node_iff {w : Json.Value} {value : Value} (h : Rebuilds w.resolved value) :
    (∃ head fields, value = .node head fields) ↔ NamesKind w := by
  cases w with
  | object members =>
      cases h with
      | object distinct hfields unnamed =>
          refine iff_of_false (fun ⟨_, _, h⟩ => nomatch h) ?_
          rintro ⟨_, kind, ⟨⟩, hkind⟩
          exact unnamed kind (Json.Value.get?_resolved_eq_string.mpr hkind)
      | element distinct hfields named other =>
          exact iff_of_true ⟨_, _, rfl⟩
            ⟨members, _, rfl, Json.Value.get?_resolved_eq_string.mp named⟩
      | literal distinct hfields named repaired =>
          exact iff_of_true ⟨_, _, rfl⟩
            ⟨members, _, rfl, Json.Value.get?_resolved_eq_string.mp named⟩
  | _ =>
      cases h
      exact iff_of_false (fun ⟨_, _, h⟩ => nomatch h) fun ⟨_, _, h, _⟩ => nomatch h

theorem rebuilds_of_written {doc : Json.Doc} {w : Json.Value} {value : Value}
    (h : Value.ofDoc doc = .ok value) (hw : doc.written? = some w) :
    Rebuilds w.resolved value := by
  obtain ⟨source, hs, hr⟩ := Value.rebuilds_of_ofDoc h
  rw [Json.Doc.value?_eq, hw, Option.map_some] at hs
  rwa [← Option.some.inj hs] at hr

theorem decode_isOk_iff (text : String) :
    (∃ node, decode text = .ok node) ↔
      ∃ w, Json.written? text = some w ∧ NamesKind w ∧ SoundLiterals w.objects := by
  rw [decode, bind_isOk_iff, Json.written?]
  generalize Json.Document.read text = document
  have hroot := Value.ofDoc_isOk_iff document.root
  cases htrailing : document.trailingFault? with
  | some fault =>
      refine iff_of_false ?_ ?_
      · rintro ⟨value, -, hnode⟩
        exact not_isOk_error _ hnode
      · rintro ⟨w, ⟨⟩, -⟩
  | none =>
      constructor
      · rintro ⟨value, hvalue, hnode⟩
        rw [mapError_eq_ok_iff] at hvalue
        obtain ⟨w, hw, hsound⟩ := hroot.mp ⟨value, hvalue⟩
        have hr := rebuilds_of_written hvalue hw
        refine ⟨w, hw, hr.node_iff.mp ?_, hsound⟩
        cases value with
        | node head fields => exact ⟨head, fields, rfl⟩
        | _ => exact absurd hnode (not_isOk_error _)
      · rintro ⟨w, hw, hkind, hsound⟩
        obtain ⟨value, hvalue⟩ := hroot.mpr ⟨w, hw, hsound⟩
        obtain ⟨head, fields, rfl⟩ := (rebuilds_of_written hvalue hw).node_iff.mpr hkind
        exact ⟨_, mapError_eq_ok_iff.mpr hvalue, _, rfl⟩

/-- A program that is nothing but a regular expression. -/
def regexProgram (pattern flags : String) : Json.Value :=
  .object [("type", .string Literal.kind), ("value", .null),
    ("regex", .object [("pattern", .string pattern), ("flags", .string flags)])]

theorem regexProgram_sound (pattern flags : String) :
    SoundLiterals (regexProgram pattern flags).objects := by
  intro members hm hkind
  have hm : members = [("type", .string Literal.kind), ("value", .null),
        ("regex", .object [("pattern", .string pattern), ("flags", .string flags)])] ∨
      members = [("pattern", .string pattern), ("flags", .string flags)] := by
    simpa [regexProgram, Json.Value.objects, Json.Value.objectsOfMembers] using hm
  rcases hm with rfl | rfl
  · exact
      { raw := ⟨none, .absent⟩
        bigint := ⟨none, .absent⟩
        regex := .source (by simp [Fields.last?, Fields.get?]) rfl rfl
        value := trivial
        numeral := by simp [Fields.last?, Fields.get?] }
  · simp [Fields.last?, Fields.get?] at hkind

/-- Exactly these texts are programs: one value, whose root names a kind, and in which
every literal is sound. Of a regular expression nothing is asked, so that any pattern
with any flags can be decoded. -/
theorem decode_accepts :
    (∀ text, (∃ node, decode text = .ok node) ↔
      ∃ w, Json.written? text = some w ∧ NamesKind w ∧ SoundLiterals w.objects) ∧
    ∀ pattern flags, ∃ node, decode (regexProgram pattern flags).text = .ok node := by
  refine ⟨decode_isOk_iff, fun pattern flags => (decode_isOk_iff _).mpr ?_⟩
  have hscans : (regexProgram pattern flags).Scans := by simp [regexProgram]
  exact ⟨_, Json.written?_text hscans, ⟨_, Literal.kind, rfl, rfl⟩,
    regexProgram_sound pattern flags⟩

end Tree

end ParseView
