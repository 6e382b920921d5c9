import Mathlib.Data.List.Forall2
import ParseView.Json.Record
import ParseView.Proofs.JsonReading

/-!
# A written record is read

What a record is read from is not what it is written as: the reader looks at every
member of an object in the order of the text, checks the ones it knows and builds the
record only when the object closes. `Record.Takes` cuts this down to what an author of
a record has to say, field by field: where the value stands among the written fields
and that its reader takes it back. Fields are put together as the record itself is, and
`Record.Takes.reads` goes through the members once for all records.

Nothing is said of the text behind a value, since no reader looks at it.
-/

namespace ParseView.Json

variable {α β : Type}

/-- The reader takes `x` from the document of the value, whatever text stands behind it. -/
def Reads (read : Reader α) (v : Value) (x : α) : Prop := ∀ rest, read (v.doc rest) = .ok x

/-- The text of every number in the value is scanned as this number. -/
def Value.Scans (v : Value) : Prop := ∀ n ∈ v.numerals, n.Scans

/-- The reader takes every value back from what is written of it. Nothing is written as
null, which is left for what is absent. -/
structure Recovers (read : Reader α) (write : α → Value) : Prop where
  scans : ∀ x, (write x).Scans
  reads : ∀ x, Reads read (write x) x
  ne_null : ∀ x, write x ≠ .null

theorem Reads.readText {read : Reader α} {v : Value} {x : α} (h : Reads read v x)
    (scans : v.Scans) : Json.readText read v.text = .ok x := by
  have hdocument : Document.read v.text = ⟨v.doc [], []⟩ := Document.read_text v scans
  have hvalue : read (v.doc []) = .ok x := h []
  simp [Json.readText, hdocument, hvalue, Document.trailingFault?, skipBlank, bind, Except.bind,
    pure, Except.pure]

theorem Recovers.readText {read : Reader α} {write : α → Value} (h : Recovers read write)
    (x : α) : Json.readText read (write x).text = .ok x :=
  (h.reads x).readText (h.scans x)

/-! ## Numbers of a written value -/

section Scans

variable {items : List Value} {fields more : Fields Value}

/-- The numbers in all fields of an object. -/
def ScansFields (fields : Fields Value) : Prop := ∀ n ∈ Value.numeralsOfFields fields, n.Scans

@[simp] theorem Value.scans_null : Value.null.Scans := fun _ hn => nomatch hn

@[simp] theorem Value.scans_string (s : String) : (Value.string s).Scans := fun _ hn => nomatch hn

@[simp] theorem Value.scans_bool (b : Bool) : (Value.bool b).Scans := fun _ hn => nomatch hn

@[simp] theorem Value.scans_whole (n : Whole) : (Value.number (.whole n)).Scans := by
  intro m hm
  rw [Value.numerals, List.mem_singleton] at hm
  rw [hm]
  exact Numeral.scans_whole n

@[simp] theorem Value.scans_ofUInt32 (n : UInt32) : (Value.ofUInt32 n).Scans := scans_whole _

@[simp] theorem Value.scans_object : (Value.object fields).Scans ↔ ScansFields fields := by
  rw [Value.Scans, Value.numerals, ScansFields]

@[simp] theorem scansFields_nil : ScansFields [] := fun _ hn => nomatch hn

@[simp] theorem scansFields_cons {field : String × Value} :
    ScansFields (field :: fields) ↔ field.2.Scans ∧ ScansFields fields := by
  simp only [ScansFields, Value.numeralsOfFields, List.forall_mem_append, Value.Scans]

@[simp] theorem scansFields_append :
    ScansFields (fields ++ more) ↔ ScansFields fields ∧ ScansFields more := by
  induction fields with
  | nil => simp
  | cons field fields ih => simp [ih, and_assoc]

theorem Value.scans_array : (Value.array items).Scans ↔ ∀ item ∈ items, item.Scans := by
  rw [Value.Scans, Value.numerals]
  induction items with
  | nil => simp [numeralsOfItems]
  | cons item items ih =>
      rw [numeralsOfItems, List.forall_mem_append, ih, List.forall_mem_cons, Value.Scans]

@[simp] theorem Value.scans_listOf {write : α → Value} {xs : List α} :
    (Value.listOf write xs).Scans ↔ ∀ x ∈ xs, (write x).Scans := by
  rw [Value.listOf, scans_array, List.forall_mem_map]

@[simp] theorem Value.scans_nullable {write : α → Value} {x : Option α} :
    (Value.nullable write x).Scans ↔ ∀ y ∈ x, (write y).Scans := by
  cases x <;> simp [Value.nullable]

@[simp] theorem scansFields_present {write : α → Value} {name : String} {x : Option α} :
    ScansFields (Value.present name write x) ↔ ∀ y ∈ x, (write y).Scans := by
  cases x <;> simp [Value.present]

end Scans

/-! ## Plain readers -/

theorem recovers_text : Recovers Reader.text .string where
  scans := Value.scans_string
  reads _ _ := rfl
  ne_null _ := nofun

theorem recovers_boolean : Recovers Reader.boolean .bool where
  scans := Value.scans_bool
  reads _ _ := rfl
  ne_null _ := nofun

/-- A number that its bound admits is read as it is. -/
theorem naturalBelow_ofNat {bound n : Nat} (hb : n < bound) (hn : n < 0x10000000000000000)
    (wanted : String) :
    Reader.naturalBelow bound wanted (.number (.ok (Numeral.ofNat n hn))) = .ok n := by
  have hrange : (0 : Int) ≤ n ∧ (n : Int) < bound := ⟨Int.natCast_nonneg n, Int.ofNat_lt.mpr hb⟩
  rw [Numeral.ofNat, Reader.naturalBelow, if_pos hrange, Int.toNat_natCast]

theorem recovers_uint32 : Recovers Reader.uint32 .ofUInt32 where
  scans := Value.scans_ofUInt32
  reads n rest := by
    show (Reader.naturalBelow 0x100000000 "u32" _).map UInt32.ofNat = _
    rw [Value.ofUInt32, Numeral.ofUInt32, Value.doc, naturalBelow_ofNat n.toNat_lt, Except.map,
      UInt32.ofNat_toNat]
  ne_null _ := nofun

/-- A name is read as the variant that was written by it, if the names tell variants apart. -/
theorem recovers_oneOf {variants : List α} {text : α → String}
    (h : ∀ x, (variants.map fun x => (text x, x)).lookup (text x) = some x) :
    Recovers (Reader.oneOf (variants.map fun x => (text x, x))) fun x => .string (text x) where
  scans x := Value.scans_string (text x)
  reads x rest := by
    rw [Value.doc, Reader.oneOf, Reader.variantNamed, h x]
  ne_null _ := nofun

section Nullable

variable {read : Reader α} {write : α → Value}

/-- The document of a value that is not null is no null, nor the beginning of one. -/
theorem Recovers.reads_some (h : Recovers read write) (x : α) :
    Reads (Reader.nullable read) (write x) (some x) := by
  intro rest
  have hnull : write x ≠ .null := h.ne_null x
  have hread : read ((write x).doc rest) = .ok x := h.reads x rest
  cases hv : write x with
  | null => exact absurd hv hnull
  | _ =>
      rw [hv] at hread
      show (read _).map some = _
      rw [hread]
      rfl

theorem Recovers.reads_nullable (h : Recovers read write) (x : Option α) :
    Reads (Reader.nullable read) (Value.nullable write x) x := by
  cases x with
  | none => exact fun _ => rfl
  | some x => exact h.reads_some x

end Nullable

/-- A list is taken if each of its items is. -/
theorem Reads.listOf {read : Reader α} {items : List Value} {xs : List α}
    (h : List.Forall₂ (Reads read) items xs) : Reads (Reader.listOf read) (.array items) xs := by
  intro rest
  have hitems : ∀ rest, (Value.docs items rest).mapM read = .ok xs := by
    induction h with
    | nil => exact fun _ => rfl
    | cons head _ ih =>
        intro rest
        rw [Value.docs, List.mapM_cons, head, ih]
        rfl
  rw [Value.doc, Reader.listOf, hitems]
  rfl

theorem Recovers.listOf {read : Reader α} {write : α → Value} (h : Recovers read write) :
    Recovers (Reader.listOf read) (Value.listOf write) where
  scans _ := Value.scans_listOf.mpr fun x _ => h.scans x
  reads _ := Reads.listOf <|
    List.forall₂_map_left_iff.mpr (List.forall₂_same.mpr fun x _ => h.reads x)
  ne_null _ := nofun

/-! ## Records -/

/-- What the reader has kept of an object's fields when it closes: the document of each
one that the record knows. -/
def Holds (specs : List FieldSpec) (docs : FieldDocs) (fields : Fields Value) : Prop :=
  ∀ spec ∈ specs,
    (Fields.get? spec.name fields = none ∧ docs.lookup spec.name = none) ∨
      ∃ v rest, Fields.get? spec.name fields = some v ∧
        docs.lookup spec.name = some (v.doc rest)

/-- The record takes `x` from these written fields, in whatever order they stand. -/
structure Record.Takes (record : Record α) (fields : Fields Value) (x : α) : Prop where
  checks : ∀ spec ∈ record.fields, ∀ v, Fields.get? spec.name fields = some v →
    ∀ rest, spec.check (v.doc rest) = .ok ()
  there : ∀ spec ∈ record.fields, spec.presence = .required →
    Fields.get? spec.name fields ≠ none
  builds : ∀ docs, Holds record.fields docs fields → record.build docs = .ok x

namespace Record.Takes

variable {fields : Fields Value} {name : String}

theorem map {record : Record α} {x : α} (h : record.Takes fields x) (f : α → β) :
    (f <$> record).Takes fields (f x) where
  checks := h.checks
  there := h.there
  builds docs hd := by
    show (record.build docs).map f = _
    rw [h.builds docs hd]
    rfl

theorem seq {first : Record (α → β)} {second : Record α} {f : α → β} {x : α}
    (hf : first.Takes fields f) (hx : second.Takes fields x) :
    (first <*> second).Takes fields (f x) where
  checks spec hspec := by
    rcases List.mem_append.mp hspec with hspec | hspec
    · exact hf.checks spec hspec
    · exact hx.checks spec hspec
  there spec hspec := by
    rcases List.mem_append.mp hspec with hspec | hspec
    · exact hf.there spec hspec
    · exact hx.there spec hspec
  builds docs hd := by
    have hfirst : first.build docs = .ok f :=
      hf.builds docs fun spec hspec => hd spec (List.mem_append_left _ hspec)
    have hsecond : second.build docs = .ok x :=
      hx.builds docs fun spec hspec => hd spec (List.mem_append_right _ hspec)
    show (first.build docs >>= fun f => second.build docs >>= fun x => pure (f x)) = _
    rw [hfirst, hsecond]
    rfl

/-- A field of any presence, whose value stands among the written ones. -/
theorem of_written {spec : FieldSpec} {build : FieldDocs → Except Refusal α} {v : Value} {x : α}
    (hv : Fields.get? spec.name fields = some v) (hcheck : ∀ rest, spec.check (v.doc rest) = .ok ())
    (hbuild : ∀ docs rest, docs.lookup spec.name = some (v.doc rest) → build docs = .ok x) :
    Record.Takes ⟨[spec], build⟩ fields x where
  checks other hother w hw := by
    rw [List.mem_singleton.mp hother, hv] at hw
    rw [List.mem_singleton.mp hother, ← Option.some.inj hw]
    exact hcheck
  there other hother _ := by
    rw [List.mem_singleton.mp hother, hv]
    exact Option.some_ne_none v
  builds docs hd := by
    rcases hd spec List.mem_cons_self with ⟨hnone, -⟩ | ⟨w, rest, hw, hdoc⟩
    · rw [hv] at hnone
      exact nomatch hnone
    · rw [hv] at hw
      rw [← Option.some.inj hw] at hdoc
      exact hbuild docs rest hdoc

/-- A field that may be left out, and is. -/
theorem of_absent {spec : FieldSpec} {build : FieldDocs → Except Refusal α} {x : α}
    (hv : Fields.get? spec.name fields = none) (hpresence : spec.presence ≠ .required)
    (hbuild : ∀ docs, docs.lookup spec.name = none → build docs = .ok x) :
    Record.Takes ⟨[spec], build⟩ fields x where
  checks other hother w hw := by
    rw [List.mem_singleton.mp hother, hv] at hw
    exact nomatch hw
  there other hother hrequired := by
    rw [List.mem_singleton.mp hother] at hrequired
    exact absurd hrequired hpresence
  builds docs hd := by
    rcases hd spec List.mem_cons_self with ⟨-, hdoc⟩ | ⟨w, rest, hw, -⟩
    · exact hbuild docs hdoc
    · rw [hv] at hw
      exact nomatch hw

theorem checkOf_reads {read : Reader α} {v : Value} {x : α} (h : Reads read v x)
    (rest : List Char) : checkOf read (v.doc rest) = .ok () := by
  rw [checkOf, h rest]
  rfl

section Fields

variable {read : Reader α} {write : α → Value}

theorem field {x : α} (h : Recovers read write)
    (hv : Fields.get? name fields = some (write x)) :
    (Record.field name read).Takes fields x :=
  of_written hv (checkOf_reads (h.reads x)) fun docs rest hdoc => by
    rw [hdoc]
    exact h.reads x rest

/-- A field with a default that is written all the same. -/
theorem defaulted {x default : α} (h : Recovers read write)
    (hv : Fields.get? name fields = some (write x)) :
    (Record.defaulted name read default).Takes fields x :=
  of_written hv (checkOf_reads (h.reads x)) fun docs rest hdoc => by
    rw [hdoc]
    exact h.reads x rest

/-- A field that is written as null when its value is absent. -/
theorem nullable {x : Option α} (h : Recovers read write)
    (hv : Fields.get? name fields = some (Value.nullable write x)) :
    (Record.nullable name read).Takes fields x :=
  of_written hv (checkOf_reads (h.reads_nullable x)) fun docs rest hdoc => by
    rw [hdoc]
    exact h.reads_nullable x rest

/-- A field that is left out when its value is absent. -/
theorem nullable_present {x : Option α} (h : Recovers read write)
    (hv : Fields.get? name fields = x.map write) : (Record.nullable name read).Takes fields x := by
  cases x with
  | none => exact of_absent hv nofun fun docs hdoc => by rw [hdoc]
  | some x => exact nullable h hv

/-- The same with a default instead of null in its place. -/
theorem defaulted_present {x : Option α} (h : Recovers read write)
    (hv : Fields.get? name fields = x.map write) :
    (Record.defaulted name (Reader.nullable read) none).Takes fields x := by
  cases x with
  | none => exact of_absent hv nofun fun docs hdoc => by rw [hdoc]
  | some x =>
      exact of_written hv (checkOf_reads (h.reads_some x)) fun docs rest hdoc => by
        rw [hdoc]
        exact h.reads_some x rest

end Fields

/-- Only the fields that the record knows matter. -/
theorem of_same {record : Record α} {more : Fields Value} {x : α} (h : record.Takes fields x)
    (hsame : ∀ spec ∈ record.fields,
      Fields.get? spec.name more = Fields.get? spec.name fields) : record.Takes more x where
  checks spec hspec v hv := h.checks spec hspec v (by rw [← hsame spec hspec, hv])
  there spec hspec hrequired := by
    rw [hsame spec hspec]
    exact h.there spec hspec hrequired
  builds docs hd := by
    refine h.builds docs fun spec hspec => ?_
    rw [← hsame spec hspec]
    exact hd spec hspec

end Record.Takes

/-! ## The members of an object -/

theorem Value.skim_doc (v : Value) (rest : List Char) : (v.doc rest).skim = .ok () := by
  cases v <;> rfl

namespace Record

variable {specs : List FieldSpec} {fields : Fields Value}

/-- A result is kept when refusals are put in their place. -/
theorem mapError_ok {ε ε' : Type} (f : ε → ε') (x : α) :
    (Except.ok x : Except ε α).mapError f = .ok x := rfl

theorem find?_name {name : String} {spec : FieldSpec}
    (h : specs.find? (fun spec => decide (spec.name = name)) = some spec) :
    spec ∈ specs ∧ spec.name = name :=
  ⟨List.mem_of_find?_eq_some h, by simpa using List.find?_some h⟩

/-- Every member is either passed over or kept. What was kept before stays, since no
name comes twice. -/
theorem scanMembers_memberDocs (distinct : (Fields.names fields).Nodup)
    (checks : ∀ spec ∈ specs, ∀ v, Fields.get? spec.name fields = some v →
      ∀ rest, spec.check (v.doc rest) = .ok ())
    (docs : FieldDocs) (fresh : ∀ name ∈ Fields.names fields, docs.lookup name = none)
    (rest : List Char) :
    ∃ kept, scanMembers specs docs (Value.memberDocs fields rest) = .ok kept ∧
      ∀ spec ∈ specs,
        (Fields.get? spec.name fields = none ∧
          kept.lookup spec.name = docs.lookup spec.name) ∨
        ∃ v behind, Fields.get? spec.name fields = some v ∧
          kept.lookup spec.name = some (v.doc behind) := by
  induction fields generalizing docs with
  | nil => exact ⟨docs, rfl, fun spec _ => .inl ⟨rfl, rfl⟩⟩
  | cons field fields ih =>
      obtain ⟨name, v⟩ := field
      obtain ⟨hnew, hdistinct⟩ := List.nodup_cons.mp distinct
      have hchecks : ∀ spec ∈ specs, ∀ w, Fields.get? spec.name fields = some w →
          ∀ rest, spec.check (w.doc rest) = .ok () := by
        intro spec hspec w hw
        refine checks spec hspec w ?_
        have hne : name ≠ spec.name := by
          rintro rfl
          rw [Fields.get?_eq_none_of_not_mem hnew] at hw
          exact nomatch hw
        rw [Fields.get?, if_neg hne, hw]
      have hfresh : ∀ other ∈ Fields.names fields, docs.lookup other = none :=
        fun other ho => fresh other (List.mem_cons_of_mem name ho)
      rw [Value.memberDocs, scanMembers]
      cases hfind : specs.find? (fun spec => decide (spec.name = name)) with
      | none =>
          obtain ⟨kept, hscan, hkept⟩ := ih hdistinct hchecks docs hfresh
          refine ⟨kept, ?_, fun spec hspec => ?_⟩
          · simp [hfind, mapError_ok, v.skim_doc, hscan, bind, Except.bind]
          · have hne : name ≠ spec.name := fun heq => by
              have := List.find?_eq_none.mp hfind spec hspec
              simp [heq] at this
            rw [Fields.get?, if_neg hne]
            exact hkept spec hspec
      | some spec =>
          obtain ⟨hspec, rfl⟩ := find?_name hfind
          have hcheck : spec.check (v.doc (Value.writeFields fields rest)) = .ok () :=
            checks spec hspec v (by rw [Fields.get?, if_pos rfl]) _
          have hnone : docs.lookup spec.name = none := fresh _ List.mem_cons_self
          obtain ⟨kept, hscan, hkept⟩ := ih hdistinct hchecks
            ((spec.name, v.doc (Value.writeFields fields rest)) :: docs) (by
              intro other ho
              have hne : (other == spec.name) = false := by
                simpa using fun heq : other = spec.name => hnew (heq ▸ ho)
              rw [List.lookup_cons, hne]
              exact hfresh other ho)
          refine ⟨kept, ?_, fun other hother => ?_⟩
          · simp [hfind, mapError_ok, hnone, hcheck, hscan, bind, Except.bind]
          · by_cases heq : spec.name = other.name
            · rcases hkept other hother with ⟨-, hlookup⟩ | ⟨w, -, hw, -⟩
              · refine .inr ⟨v, Value.writeFields fields rest, ?_, ?_⟩
                · rw [Fields.get?, if_pos heq]
                · rw [hlookup, ← heq, List.lookup_cons_self]
              · rw [← heq, Fields.get?_eq_none_of_not_mem hnew] at hw
                exact nomatch hw
            · rw [Fields.get?, if_neg heq]
              rcases hkept other hother with ⟨hget, hlookup⟩ | hkept
              · have hne : (other.name == spec.name) = false := by simpa using Ne.symm heq
                rw [List.lookup_cons, hne] at hlookup
                exact .inl ⟨hget, hlookup⟩
              · exact .inr hkept

/-- A record is read from the fields that it takes, whichever of them it knows. -/
theorem Takes.reads {record : Record α} {x : α} (h : record.Takes fields x)
    (distinct : (Fields.names fields).Nodup) (name : String) :
    Reads (record.read name) (.object fields) x := by
  intro rest
  obtain ⟨docs, hscan, hkept⟩ :=
    scanMembers_memberDocs distinct h.checks [] (fun _ _ => rfl) rest
  have hholds : Holds record.fields docs fields := hkept
  have hmissing : missing? record.fields docs = none := by
    rw [missing?, Option.map_eq_none_iff, List.find?_eq_none]
    intro spec hspec
    rcases hholds spec hspec with ⟨hget, -⟩ | ⟨v, behind, -, hdoc⟩
    · have hpresence : spec.presence ≠ .required := fun hrequired =>
        h.there spec hspec hrequired hget
      simp [hpresence]
    · simp [hdoc]
  rw [Value.doc, Record.read]
  simp [hscan, hmissing, h.builds docs hholds, Reader.atEnd, bind, Except.bind]

end Record

/-- A record is recovered if it takes every value from the fields that are written of it. -/
theorem Record.recovers {record : Record α} {write : α → Fields Value} (name : String)
    (scans : ∀ x, ScansFields (write x)) (distinct : ∀ x, (Fields.names (write x)).Nodup)
    (takes : ∀ x, record.Takes (write x) x) :
    Recovers (record.read name) fun x => .object (write x) where
  scans x := Value.scans_object.mpr (scans x)
  reads x := (takes x).reads (distinct x) name
  ne_null _ := nofun

end ParseView.Json
