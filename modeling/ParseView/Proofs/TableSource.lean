import Mathlib.Data.List.Forall2
import ParseView.Aria.Emit
import ParseView.Proofs.QuotedReading
import ParseView.Proofs.RecordReading

/-!
# The generated table says what was authored

A table is accepted if its names are distinct and its types are known, and otherwise it
is refused for the first entry that breaks one of the two. The source of an accepted
table is read back by `readSource?`, which knows of the source only how it is spelled: a
row is a line, its texts are literals, its type is the name of a variant. A name or a
token may hold quotes, brackets, commas or line feeds; since the writer escapes what
would end a literal or a line, the reader finds every row where it was written, and what
it finds there is what the entry says.
-/

namespace ParseView.Aria

open Json (Reader Record)
open Text (readQuoted? length_of_readQuoted? readQuoted?_quoted newline_notMem_quoted)

/-! ## Which tables have rules -/

/-- The names are distinct and every type is known. -/
structure AuthoredTable.Sound (table : AuthoredTable) : Prop where
  distinct : (table.map Prod.fst).Nodup
  known : ∀ entry ∈ table, ∃ kind : Kind, kind.tag = entry.2.tag

/-- What is told about the first entry that makes a table unsound. A name that comes
again is told whether or not the type is known. -/
inductive FirstFlaw (table : AuthoredTable) : TableError → Prop where
  | repeated {before after : AuthoredTable} {name : String} {descriptor : Descriptor}
      (split : table = before ++ (name, descriptor) :: after) (sound : before.Sound)
      (again : name ∈ before.map Prod.fst) : FirstFlaw table (.duplicateAttribute name)
  | unknown {before after : AuthoredTable} {name : String} {descriptor : Descriptor}
      (split : table = before ++ (name, descriptor) :: after) (sound : before.Sound)
      (fresh : name ∉ before.map Prod.fst) (strange : ∀ kind : Kind, kind.tag ≠ descriptor.tag) :
      FirstFlaw table (.unknownType name descriptor.tag)

theorem Kind.ofTag?_eq_none {tag : String} (h : ∀ kind : Kind, kind.tag ≠ tag) :
    Kind.ofTag? tag = none := by
  rw [ofTag?, List.find?_eq_none]
  intro kind _
  simpa using h kind

theorem Descriptor.rule?_of_tag {descriptor : Descriptor} {kind : Kind}
    (h : kind.tag = descriptor.tag) : descriptor.rule? = some (descriptor.rule kind) := by
  rw [rule?, ← h, Kind.ofTag?_tag]
  rfl

theorem AuthoredTable.Sound.append_singleton {table : AuthoredTable}
    {entry : String × Descriptor} (h : table.Sound) (fresh : entry.1 ∉ table.map Prod.fst)
    (known : ∃ kind : Kind, kind.tag = entry.2.tag) : Sound (table ++ [entry]) where
  distinct := by
    rw [List.map_append, List.map_singleton, List.nodup_append]
    refine ⟨h.distinct, by simp, fun name hname other hother heq => fresh ?_⟩
    rwa [← List.mem_singleton.mp hother, ← heq]
  known other hother := by
    rcases List.mem_append.mp hother with hother | hother
    · exact h.known other hother
    · rw [List.mem_singleton.mp hother]
      exact known

/-- A table is sound or there is a first entry that is at fault. -/
theorem AuthoredTable.sound_or_firstFlaw (table : AuthoredTable) :
    table.Sound ∨ ∃ error, FirstFlaw table error := by
  have hfrom (before after : AuthoredTable) (hbefore : before.Sound) :
      (before ++ after).Sound ∨ ∃ error, FirstFlaw (before ++ after) error := by
    induction after generalizing before with
    | nil => exact .inl (by rwa [List.append_nil])
    | cons entry after ih =>
        by_cases hagain : entry.1 ∈ before.map Prod.fst
        · exact .inr ⟨_, .repeated rfl hbefore hagain⟩
        by_cases hknown : ∃ kind : Kind, kind.tag = entry.2.tag
        · simpa using ih (before ++ [entry]) (hbefore.append_singleton hagain hknown)
        · exact .inr ⟨_, .unknown rfl hbefore hagain (not_exists.mp hknown)⟩
  exact hfrom [] table ⟨List.nodup_nil, nofun⟩

/-! ## What a row says of an entry -/

/-- The values without true and false; nothing where there are no values at all. -/
def Descriptor.tokens (descriptor : Descriptor) : Option (List AuthoredValue) :=
  descriptor.values.map (·.filter fun value => !value.isBoolean)

/-- True or false is among the values. -/
def Descriptor.HasBoolean (descriptor : Descriptor) : Prop :=
  ∃ values ∈ descriptor.values, ∃ b, .boolean b ∈ values

/-- The row has the name of the entry, the type of its tag, its tokens and its flag, and
allows true and false if one of them is authored. -/
structure Says (entry : String × Descriptor) (row : String × Rule) : Prop where
  name : row.1 = entry.1
  kind : row.2.kind.tag = entry.2.tag
  tokens : row.2.allowed.map (·.map AuthoredValue.token) = entry.2.tokens
  undefined : row.2.allowUndefined = entry.2.allowUndefined
  booleans : row.2.allowBooleans = true ↔ entry.2.HasBoolean

/-- The same is authored of the two, as far as rules go. -/
structure SameContents (entry other : String × Descriptor) : Prop where
  name : entry.1 = other.1
  tag : entry.2.tag = other.2.tag
  tokens : entry.2.tokens = other.2.tokens
  undefined : entry.2.allowUndefined = other.2.allowUndefined
  booleans : entry.2.HasBoolean ↔ other.2.HasBoolean

theorem Says.sameContents {entry other : String × Descriptor} {row : String × Rule}
    (h : Says entry row) (hother : Says other row) : SameContents entry other where
  name := h.name.symm.trans hother.name
  tag := h.kind.symm.trans hother.kind
  tokens := h.tokens.symm.trans hother.tokens
  undefined := h.undefined.symm.trans hother.undefined
  booleans := h.booleans.symm.trans hother.booleans

theorem sameContents_of_says {table other : AuthoredTable} {rows : List (String × Rule)}
    (h : List.Forall₂ Says table rows) (hother : List.Forall₂ Says other rows) :
    List.Forall₂ SameContents table other := by
  induction h generalizing other with
  | nil =>
      cases hother
      exact .nil
  | cons head _ ih =>
      cases hother with
      | cons head' tail' => exact .cons (head.sameContents head') (ih tail')

theorem map_token_filterMap (values : List AuthoredValue) :
    (values.filterMap AuthoredValue.token?).map .token =
      values.filter fun value => !value.isBoolean := by
  induction values with
  | nil => rfl
  | cons value values ih =>
      cases value with
      | boolean b => exact ih
      | token s => exact congrArg (.token s :: ·) ih

theorem any_isBoolean_iff {values : List AuthoredValue} :
    values.any AuthoredValue.isBoolean = true ↔ ∃ b, .boolean b ∈ values := by
  rw [List.any_eq_true]
  constructor
  · rintro ⟨value, hmem, hboolean⟩
    cases value with
    | boolean b => exact ⟨b, hmem⟩
    | token s => exact nomatch hboolean
  · rintro ⟨b, hmem⟩
    exact ⟨_, hmem, rfl⟩

theorem says_rule {entry : String × Descriptor} {kind : Kind} (h : kind.tag = entry.2.tag) :
    Says entry (entry.1, entry.2.rule kind) where
  name := rfl
  kind := h
  tokens := by
    rw [Descriptor.rule, Option.map_map, Descriptor.tokens]
    exact Option.map_congr fun values _ => map_token_filterMap values
  undefined := rfl
  booleans := by
    rw [Descriptor.rule, Option.any_eq_true, Descriptor.HasBoolean]
    exact exists_congr fun values => and_congr_right fun _ => any_isBoolean_iff

/-! ## The rules of a table -/

/-- Entries with new names and known types do not stop the search for rules. -/
theorem rulesFrom_append (seen : List String) {before : AuthoredTable} (sound : before.Sound)
    (fresh : ∀ name ∈ before.map Prod.fst, name ∉ seen) (after : AuthoredTable) :
    ∃ rules, List.Forall₂ Says before rules ∧
      rulesFrom seen (before ++ after) =
        (rulesFrom ((before.map Prod.fst).reverse ++ seen) after).map (rules ++ ·) := by
  induction before generalizing seen with
  | nil => exact ⟨[], .nil, by cases h : rulesFrom seen after <;> simp [h, Except.map]⟩
  | cons entry before ih =>
      obtain ⟨name, descriptor⟩ := entry
      obtain ⟨hnew, hdistinct⟩ := List.nodup_cons.mp sound.distinct
      obtain ⟨kind, hkind⟩ := sound.known _ List.mem_cons_self
      have hsound : AuthoredTable.Sound before :=
        ⟨hdistinct, fun entry hentry => sound.known entry (List.mem_cons_of_mem _ hentry)⟩
      have hseen : ∀ other ∈ before.map Prod.fst, other ∉ name :: seen := by
        intro other hother
        rw [List.mem_cons, not_or]
        exact ⟨fun heq => hnew (heq ▸ hother), fresh other (List.mem_cons_of_mem _ hother)⟩
      obtain ⟨rules, hsays, hrules⟩ := ih (name :: seen) hsound hseen
      refine ⟨(name, descriptor.rule kind) :: rules, .cons (says_rule hkind) hsays, ?_⟩
      rw [List.cons_append, rulesFrom, if_neg (fresh name List.mem_cons_self),
        Descriptor.rule?_of_tag hkind]
      have hseen' : (((name, descriptor) :: before).map Prod.fst).reverse ++ seen =
          (before.map Prod.fst).reverse ++ name :: seen := by
        simp
      rw [hseen']
      simp only [hrules]
      cases rulesFrom ((before.map Prod.fst).reverse ++ name :: seen) after <;> rfl

theorem AuthoredTable.Sound.rules {table : AuthoredTable} (h : table.Sound) :
    ∃ rules, table.rules = .ok rules ∧ List.Forall₂ Says table rules := by
  obtain ⟨rules, hsays, hrules⟩ := rulesFrom_append [] h (fun _ _ => nofun) []
  refine ⟨rules, ?_, hsays⟩
  rw [List.append_nil] at hrules
  rw [AuthoredTable.rules, hrules]
  simp [rulesFrom, Except.map]

theorem FirstFlaw.rules {table : AuthoredTable} {error : TableError} (h : FirstFlaw table error) :
    table.rules = .error error := by
  cases h with
  | @repeated before after name descriptor split sound again =>
      obtain ⟨rules, -, hrules⟩ := rulesFrom_append [] sound (fun _ _ => nofun)
        ((name, descriptor) :: after)
      have hseen : name ∈ (before.map Prod.fst).reverse ++ [] := by simpa using again
      rw [AuthoredTable.rules, split, hrules, rulesFrom, if_pos hseen]
      rfl
  | @unknown before after name descriptor split sound fresh strange =>
      obtain ⟨rules, -, hrules⟩ := rulesFrom_append [] sound (fun _ _ => nofun)
        ((name, descriptor) :: after)
      have hseen : name ∉ (before.map Prod.fst).reverse ++ [] := by simpa using fresh
      have hrule : descriptor.rule? = none := by
        rw [Descriptor.rule?, Kind.ofTag?_eq_none strange]
        rfl
      rw [AuthoredTable.rules, split, hrules, rulesFrom, if_neg hseen, hrule]
      rfl

/-! ## Reading the source -/

/-- A text that always stands at this place. -/
def passText? (text : String) (s : List Char) : Option (List Char) := text.toList.isPrefixOf? s

/-- A type by the name of its variant. -/
def readKind? (s : List Char) : Option (Kind × List Char) :=
  (Kind.all.find? fun kind => decide (kind.variant.toList = s.takeWhile Text.isAsciiLetter)).map
    (·, s.dropWhile Text.isAsciiLetter)

def readFlag? (s : List Char) : Option (Bool × List Char) :=
  match passText? "true" s with
  | some rest => some (true, rest)
  | none => (passText? "false" s).map (false, ·)

/-- Tokens up to the bracket that closes their list. -/
def readTokens? (s : List Char) : Option (List String × List Char) :=
  match _h : readQuoted? s with
  | some (token, ',' :: ' ' :: rest) =>
    (readTokens? rest).map fun (more, rest) => (token :: more, rest)
  | some (token, ']' :: rest) => some ([token], rest)
  | _ => none
termination_by s.length
decreasing_by
  have := length_of_readQuoted? _h
  simp only [List.length_cons] at this
  omega

def readList? : List Char → Option (List String × List Char)
  | ']' :: rest => some ([], rest)
  | s => readTokens? s

def readAllowed? (s : List Char) : Option (Option (List String) × List Char) :=
  match passText? "Some(&[" s with
  | none => (passText? "None" s).map (none, ·)
  | some s => do
    let (tokens, s) ← readList? s
    let s ← passText? ")" s
    return (some tokens, s)

/-- A line of the table. -/
def readRow? (s : List Char) : Option (String × Rule) := do
  let s ← passText? "    (" s
  let (name, s) ← readQuoted? s
  let s ← passText? ", AriaPropTypeRule \x7b prop_type: AriaPropType::" s
  let (kind, s) ← readKind? s
  let s ← passText? ", allowed_values: " s
  let (allowed, s) ← readAllowed? s
  let s ← passText? ", allow_undefined: " s
  let (allowUndefined, s) ← readFlag? s
  let s ← passText? ", allow_boolean_values: " s
  let (allowBooleans, s) ← readFlag? s
  if s = " \x7d),".toList then some (name, ⟨kind, allowed, allowUndefined, allowBooleans⟩) else none

/-- Lines up to the one that closes the table, behind which nothing stands. -/
def readRows? : List (List Char) → Option (List (String × Rule))
  | [] => none
  | line :: rest =>
    if line = "];".toList then
      if rest = [[]] then some [] else none
    else do
      let row ← readRow? line
      let rows ← readRows? rest
      return row :: rows

/-- The rows of a source text. -/
def readSource? (source : String) : Option (List (String × Rule)) := do
  let table ← passText? sourceHeader source.toList
  readRows? (Text.splitAt '\n' table)

/-! ## The source is read back -/

@[simp] theorem passText?_append (text : String) (rest : List Char) :
    passText? text (text.toList ++ rest) = some rest := by
  rw [passText?, List.isPrefixOf?_eq_some_iff_append_eq]

/-- The name of a variant ends at the comma behind it. -/
theorem readKind?_variant (kind : Kind) (rest : List Char) :
    readKind? (kind.variant.toList ++ (", allowed_values: ".toList ++ rest)) =
      some (kind, ", allowed_values: ".toList ++ rest) := by
  cases kind <;> rfl

theorem readFlag?_toString (b : Bool) (rest : List Char) :
    readFlag? ((toString b).toList ++ rest) = some (b, rest) := by
  cases b <;> rfl

theorem readTokens?_intercalate {tokens : List String} (hne : tokens ≠ []) (rest : List Char) :
    readTokens? ((", ".intercalate (tokens.map Text.quoted)).toList ++ ']' :: rest) =
      some (tokens, rest) := by
  induction tokens with
  | nil => exact absurd rfl hne
  | cons token tokens ih =>
      cases tokens with
      | nil =>
          have hread := readQuoted?_quoted token (']' :: rest)
          rw [List.map_singleton, String.intercalate_singleton, readTokens?]
          split <;> simp_all
      | cons next tokens =>
          have hread := readQuoted?_quoted token (',' :: ' ' ::
            ((", ".intercalate ((next :: tokens).map Text.quoted)).toList ++ ']' :: rest))
          have htext : (", ".intercalate ((token :: next :: tokens).map Text.quoted)).toList ++
              ']' :: rest = (Text.quoted token).toList ++ ',' :: ' ' ::
                ((", ".intercalate ((next :: tokens).map Text.quoted)).toList ++ ']' :: rest) := by
            rw [List.map_cons, List.map_cons, String.intercalate_cons_cons, String.toList_append,
              String.toList_append, List.append_assoc, List.append_assoc]
            rfl
          rw [htext, readTokens?]
          split
          · next heq =>
              rw [hread] at heq
              obtain ⟨rfl, htail⟩ := Prod.mk.inj (Option.some.inj heq)
              cases htail
              rw [ih nofun]
              rfl
          all_goals simp_all

theorem readList?_intercalate (tokens : List String) (rest : List Char) :
    readList? ((", ".intercalate (tokens.map Text.quoted)).toList ++ ']' :: rest) =
      some (tokens, rest) := by
  cases tokens with
  | nil => rfl
  | cons token tokens =>
      have hread := readTokens?_intercalate (List.cons_ne_nil token tokens) rest
      rw [readList?, hread]
      intro more heq
      rw [heq, readTokens?] at hread
      exact nomatch hread

theorem readAllowed?_allowedSource (allowed : Option (List String)) (rest : List Char) :
    readAllowed? ((allowedSource allowed).toList ++ rest) = some (allowed, rest) := by
  cases allowed with
  | none => rfl
  | some tokens =>
      have hread := readList?_intercalate tokens (")".toList ++ rest)
      have htext : (allowedSource (some tokens)).toList ++ rest = "Some(&[".toList ++
          ((", ".intercalate (tokens.map Text.quoted)).toList ++ ']' :: (")".toList ++ rest)) := by
        rw [allowedSource, String.toList_append, String.toList_append, List.append_assoc,
          List.append_assoc]
        rfl
      rw [htext, readAllowed?, passText?_append]
      simp only [hread, Option.bind_eq_bind, Option.bind_some, passText?_append, Option.pure_def]

theorem newline_notMem_intercalate (tokens : List String) :
    '\n' ∉ (", ".intercalate (tokens.map Text.quoted)).toList := by
  induction tokens with
  | nil => simp
  | cons token tokens ih =>
      have htoken := newline_notMem_quoted token
      cases tokens with
      | nil => simpa using htoken
      | cons next tokens =>
          rw [List.map_cons, List.map_cons, String.intercalate_cons_cons, String.toList_append,
            String.toList_append]
          simp only [List.mem_append, not_or]
          exact ⟨⟨htoken, by decide⟩, ih⟩

theorem newline_notMem_allowedSource (allowed : Option (List String)) :
    '\n' ∉ (allowedSource allowed).toList := by
  cases allowed with
  | none => decide
  | some tokens =>
      rw [allowedSource, String.toList_append, String.toList_append]
      simp only [List.mem_append, not_or]
      exact ⟨⟨by decide, newline_notMem_intercalate tokens⟩, by decide⟩

/-- A rule is written on a line of its own, which is read as this rule. -/
theorem Rule.source_line (name : String) (rule : Rule) :
    ∃ line, (rule.source name).toList = line ++ ['\n'] ∧ '\n' ∉ line ∧ line ≠ "];".toList ∧
      readRow? line = some (name, rule) := by
  obtain ⟨kind, allowed, allowUndefined, allowBooleans⟩ := rule
  refine ⟨"    (".toList ++ ((Text.quoted name).toList ++
    (", AriaPropTypeRule \x7b prop_type: AriaPropType::".toList ++ (kind.variant.toList ++
    (", allowed_values: ".toList ++ ((allowedSource allowed).toList ++
    (", allow_undefined: ".toList ++ ((toString allowUndefined).toList ++
    (", allow_boolean_values: ".toList ++ ((toString allowBooleans).toList ++
    " \x7d),".toList))))))))), ?_, ?_, ?_, ?_⟩
  · -- the equation of `Rule.source` would be proved by computing its text
    delta Rule.source
    simp only [String.toList_append, List.append_assoc]
    rfl
  · have hkind : '\n' ∉ kind.variant.toList := by cases kind <;> decide
    have hflag (b : Bool) : '\n' ∉ (toString b).toList := by cases b <;> decide
    have hname := newline_notMem_quoted name
    have hallowed := newline_notMem_allowedSource allowed
    simp only [List.mem_append, not_or]
    refine ⟨by decide, hname, by decide, hkind, by decide, hallowed, by decide, hflag _,
      by decide, hflag _, by decide⟩
  · intro heq
    have hhead : some ' ' = some ']' := congrArg List.head? heq
    exact absurd hhead (by decide)
  · simp only [readRow?, passText?_append, readQuoted?_quoted, readKind?_variant,
      readAllowed?_allowedSource, readFlag?_toString, Option.bind_eq_bind, Option.bind_some,
      if_true]

theorem readRows?_rows (rules : List (String × Rule)) :
    readRows? (Text.splitAt '\n'
      (rules.flatMap (fun row => (row.2.source row.1).toList) ++ sourceFooter.toList)) =
      some rules := by
  induction rules with
  | nil => rfl
  | cons row rules ih =>
      obtain ⟨line, htext, hnewline, hclose, hread⟩ := Rule.source_line row.1 row.2
      rw [List.flatMap_cons, htext, List.append_assoc, List.append_assoc, List.singleton_append,
        Text.splitAt_append_cons hnewline, readRows?, if_neg hclose, hread, ih]
      rfl

theorem readSource?_sourceOfRules (rules : List (String × Rule)) :
    readSource? (sourceOfRules rules) = some rules := by
  have htext : (sourceOfRules rules).toList = sourceHeader.toList ++
      (rules.flatMap (fun row => (row.2.source row.1).toList) ++ sourceFooter.toList) := by
    rw [sourceOfRules, String.toList_append, String.toList_append, String.toList_join,
      List.flatMap_map, List.append_assoc]
  rw [readSource?, htext, passText?_append]
  exact readRows?_rows rules

/-! ## From a JSON text -/

def AuthoredValue.toJson : AuthoredValue → Json.Value
  | .boolean b => .bool b
  | .token s => .string s

/-- A pair of a list as it stands in JSON: a name and an object with a type, with values
unless they are absent or null, and with a flag unless it is false. The object may have
other fields. -/
inductive Authors : Json.Value → String × Descriptor → Prop where
  | pair {name : String} {fields : Fields Json.Value} {descriptor : Descriptor}
      (distinct : (Fields.names fields).Nodup) (scans : Json.ScansFields fields)
      (tag : Fields.get? "type" fields = some (.string descriptor.tag))
      (values : Fields.get? "values" fields = descriptor.values.map (.listOf AuthoredValue.toJson) ∨
        Fields.get? "values" fields = some .null ∧ descriptor.values = none)
      (undefined : Fields.get? "allowundefined" fields = some (.bool descriptor.allowUndefined) ∨
        Fields.get? "allowundefined" fields = none ∧ descriptor.allowUndefined = false) :
      Authors (.array [.string name, .object fields]) (name, descriptor)

theorem AuthoredValue.recovers : Json.Recovers readValue AuthoredValue.toJson where
  scans value := by cases value <;> simp [toJson]
  reads value rest := by cases value <;> rfl
  ne_null value := by cases value <;> exact nofun

theorem Authors.scans {pair : Json.Value} {entry : String × Descriptor} (h : Authors pair entry) :
    pair.Scans := by
  cases h with
  | pair _ scans _ _ _ => simpa [Json.Value.scans_array] using scans

/-- The three fields of a descriptor are taken from an object that holds others besides. -/
theorem Authors.reads {pair : Json.Value} {entry : String × Descriptor}
    (h : Authors pair entry) : Json.Reads readEntry pair entry := by
  cases h with
  | @pair name fields descriptor distinct scans tag values undefined =>
      have hvalues : (Record.defaulted "values" (Reader.nullable (Reader.listOf readValue))
          none).Takes fields descriptor.values := by
        rcases values with values | ⟨hnull, hnone⟩
        · exact .defaulted_present AuthoredValue.recovers.listOf values
        · rw [hnone]
          exact .of_written hnull (fun _ => rfl) fun docs rest hdoc => by rw [hdoc]; rfl
      have hundefined : (Record.defaulted "allowundefined" Reader.boolean false).Takes fields
          descriptor.allowUndefined := by
        rcases undefined with undefined | ⟨hnone, hfalse⟩
        · exact .defaulted Json.recovers_boolean undefined
        · rw [hfalse]
          exact .of_absent hnone nofun fun docs hdoc => by rw [hdoc]
      have hdescriptor := ((Record.Takes.map (.field Json.recovers_text tag) Descriptor.mk
        |>.seq hvalues).seq hundefined).reads distinct "struct AttributeDescriptor"
      intro rest
      have hname : ∀ rest, Reader.text ((Json.Value.string name).doc rest) = .ok name :=
        fun _ => rfl
      have hobject : ∀ rest, readDescriptor ((Json.Value.object fields).doc rest) =
          .ok descriptor := hdescriptor
      rw [Json.Value.doc, Json.Value.docs, Json.Value.docs, Json.Value.docs, readEntry, hname,
        hobject]
      rfl

theorem AuthoredTable.read_authored {pairs : List Json.Value} {table : AuthoredTable}
    (h : List.Forall₂ Authors pairs table) :
    AuthoredTable.read (Json.Value.array pairs).text = .ok table := by
  have hscans : ∀ pair ∈ pairs, pair.Scans := by
    induction h with
    | nil => exact nofun
    | cons head _ ih => exact List.forall_mem_cons.mpr ⟨head.scans, ih⟩
  have hreads := Json.Reads.listOf (h.imp fun _ _ => Authors.reads)
  rw [AuthoredTable.read, hreads.readText (Json.Value.scans_array.mpr hscans)]
  rfl

/-! ## The whole of it -/

/-- A sound table has a source, another one the error of its first flaw. The source is
read back as one row for each entry that says what the entry says, so tables with one
source have the same contents; and a table is what its authors wrote in JSON. -/
theorem AuthoredTable.source_says_contents (table : AuthoredTable) :
    ((∃ source, table.source = .ok source) ↔ table.Sound) ∧
    (∀ error, table.source = .error error ↔ FirstFlaw table error) ∧
    (∀ source, table.source = .ok source →
      (∃ rows, readSource? source = some rows ∧ List.Forall₂ Says table rows) ∧
      ∀ other : AuthoredTable, other.source = .ok source →
        List.Forall₂ SameContents table other) ∧
    ∀ pairs, List.Forall₂ Authors pairs table →
      AuthoredTable.read (Json.Value.array pairs).text = .ok table := by
  have hsound {table : AuthoredTable} (h : table.Sound) :
      ∃ rules, table.source = .ok (sourceOfRules rules) ∧ List.Forall₂ Says table rules := by
    obtain ⟨rules, hrules, hsays⟩ := h.rules
    exact ⟨rules, by rw [AuthoredTable.source, hrules]; rfl, hsays⟩
  have hflaw {table : AuthoredTable} {error : TableError} (h : FirstFlaw table error) :
      table.source = .error error := by
    rw [AuthoredTable.source, h.rules]
    rfl
  have hok {table : AuthoredTable} {source : String} (h : table.source = .ok source) :
      table.Sound := by
    rcases table.sound_or_firstFlaw with hs | ⟨error, hf⟩
    · exact hs
    · exact nomatch h.symm.trans (hflaw hf)
  have hrows {table : AuthoredTable} {source : String} (h : table.source = .ok source) :
      ∃ rows, readSource? source = some rows ∧ List.Forall₂ Says table rows := by
    obtain ⟨rules, hsource, hsays⟩ := hsound (hok h)
    obtain rfl := Except.ok.inj (hsource.symm.trans h)
    exact ⟨rules, readSource?_sourceOfRules rules, hsays⟩
  refine ⟨⟨fun ⟨_, h⟩ => hok h, fun h => ?_⟩, fun error => ⟨fun h => ?_, hflaw⟩,
    fun source h => ⟨hrows h, fun other hother => ?_⟩, fun pairs => read_authored⟩
  · obtain ⟨rules, hsource, -⟩ := hsound h
    exact ⟨_, hsource⟩
  · rcases table.sound_or_firstFlaw with hs | ⟨error', hf⟩
    · obtain ⟨rules, hsource, -⟩ := hsound hs
      exact nomatch h.symm.trans hsource
    · obtain rfl := Except.error.inj ((hflaw hf).symm.trans h)
      exact hf
  · obtain ⟨rows, hread, hsays⟩ := hrows h
    obtain ⟨rows', hread', hsays'⟩ := hrows hother
    obtain rfl := Option.some.inj (hread.symm.trans hread')
    exact sameContents_of_says hsays hsays'

/-- An entry that does both is told for its name. -/
example : AuthoredTable.source [("a", ⟨"string", none, false⟩), ("a", ⟨"object", none, true⟩)] =
    .error (.duplicateAttribute "a") := by
  rfl

end ParseView.Aria
