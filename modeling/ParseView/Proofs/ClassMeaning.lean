import ParseView.Proofs.ClassAtoms
import ParseView.Proofs.ClassReading
import ParseView.Regexp.Compiled

/-!
# What a class means, and what is written for it

A dash between two atoms of a class is an operator. `ecmaParts` groups the atoms from
the left as the grammar does: an atom, the dash and the atom behind it are one part, and
reading goes on behind them. `writtenParts` groups them as they are written for the
engine, and differs in one place only: a set is a part of its own, so that a dash behind
it is read as an atom again.

Every class that is written denotes what its written parts hold. These are the parts of
the grammar unless, behind a set and a dash, the next atom stands before another dash
that it is not the right side of; `Settled` rules this out.
-/

namespace ParseView.Regexp

open Pattern (ClassItem CharText ItemText ItemsText Denotes)

/-! ## What atoms hold -/

/-- The codes in a set that has a letter of its own. -/
def ShortClass.Holds : ShortClass → Nat → Prop
  | .digit, code => '0'.toNat ≤ code ∧ code ≤ '9'.toNat
  | .word, code => ('0'.toNat ≤ code ∧ code ≤ '9'.toNat) ∨ ('A'.toNat ≤ code ∧ code ≤ 'Z'.toNat) ∨
    ('a'.toNat ≤ code ∧ code ≤ 'z'.toNat) ∨ code = '_'.toNat
  | .space, code => code ∈ [0x09, 0x0A, 0x0B, 0x0C, 0x0D, 0x20, 0xA0, 0x1680, 0x2028, 0x2029,
      0x202F, 0x205F, 0x3000, 0xFEFF] ∨ (0x2000 ≤ code ∧ code ≤ 0x200A)

def ClassAtom.char? : ClassAtom → Option Char
  | .dash => some '-'
  | .char c => some c
  | .set _ _ => none

def ClassAtom.Holds : ClassAtom → Nat → Prop
  | .dash, code => code = '-'.toNat
  | .char c, code => code = c.toNat
  | .set members negated, code => if negated then ¬ members.Holds code else members.Holds code

/-- One atom, or two with a dash between them. -/
inductive ClassPart where
  | single (a : ClassAtom)
  | pair (a b : ClassAtom)
deriving DecidableEq, Repr

/-- A range of two characters. A set bounds no range: then both sides and the dash
belong to the class. -/
def ClassPart.Holds : ClassPart → Nat → Prop
  | .single a, code => a.Holds code
  | .pair a b, code =>
    match a.char?, b.char? with
    | some low, some high => low.toNat ≤ code ∧ code ≤ high.toNat
    | _, _ => a.Holds code ∨ code = '-'.toNat ∨ b.Holds code

def PartsHold (parts : List ClassPart) (code : Nat) : Prop := ∃ part ∈ parts, part.Holds code

/-- A class holds what its parts hold, or everything else. -/
def ClassHolds (negated : Bool) (parts : List ClassPart) (code : Nat) : Prop :=
  if negated then ¬ PartsHold parts code else PartsHold parts code

/-- The parts of a class, from the left. -/
def ecmaParts : List ClassAtom → List ClassPart
  | [] => []
  | a :: .dash :: b :: rest => .pair a b :: ecmaParts rest
  | a :: rest => .single a :: ecmaParts rest

/-- The parts that are written for a class. No set is the left side of a dash. -/
def writtenParts : List ClassAtom → List ClassPart
  | [] => []
  | .set members negated :: rest => .single (.set members negated) :: writtenParts rest
  | a :: .dash :: b :: rest => .pair a b :: writtenParts rest
  | a :: rest => .single a :: writtenParts rest

/-! ## The members that are written -/

def ClassAtom.member : ClassAtom → Member
  | .dash => .char '-'
  | .char c => .char c
  | .set members negated => .set members negated

def ClassPart.members : ClassPart → List Member
  | .single a => [a.member]
  | .pair a b =>
    match a.char?, b.char? with
    | some low, some high => [.range low high]
    | _, _ => [a.member, .char '-', b.member]

/-- The ends of a range stand in their order. -/
def Member.Ordered : Member → Prop
  | .range low high => ¬ high < low
  | _ => True

theorem ClassAtom.scanned_of_char? {a : ClassAtom} {c : Char} (h : a.char? = some c) :
    a.scanned = .char c ∧ a.member = .char c := by
  cases a with
  | set members negated => exact nomatch h
  | _ => cases h; exact ⟨rfl, rfl⟩

theorem ClassAtom.exists_char? {a : ClassAtom}
    (h : ∀ members negated, a = .set members negated → False) : ∃ c, a.char? = some c := by
  cases a with
  | dash => exact ⟨'-', rfl⟩
  | char c => exact ⟨c, rfl⟩
  | set members negated => exact absurd rfl (h members negated)

theorem writtenParts_pair {a b : ClassAtom} {low : Char} (h : a.char? = some low)
    (rest : List ClassAtom) : writtenParts (a :: .dash :: b :: rest) =
      .pair a b :: writtenParts rest := by
  cases a with
  | set members negated => exact nomatch h
  | _ => rfl

theorem writtenParts_single {a : ClassAtom} {c : Char} (h : a.char? = some c)
    {rest : List ClassAtom} (hne : ∀ b more, rest ≠ .dash :: b :: more) :
    writtenParts (a :: rest) = .single a :: writtenParts rest := by
  rw [writtenParts]
  · rintro members negated rfl
    exact nomatch h
  · exact fun b more heq => hne b more heq

section Scan

variable {unicode : Bool} {s after rest : List Char} {low high : Char}

/-- The scanner puts members in front of what it makes of the text behind them. -/
def Leads (unicode : Bool) (s : List Char) (lead : List Member) (after : List Char) : Prop :=
  scanMembers unicode s = (scanMembers unicode after).map fun (more, rest) => (lead ++ more, rest)

theorem scanMembers_close : scanMembers unicode (']' :: rest) = some ([], rest) := by
  have ha : scanAtom unicode (']' :: rest) = some (.close, rest) := rfl
  rw [scanMembers]
  split <;> simp_all

theorem leads_set {members : ShortClass} {negated : Bool}
    (ha : scanAtom unicode s = some (.set members negated, after)) :
    Leads unicode s [.set members negated] after := by
  rw [Leads, scanMembers]
  split <;> simp_all

theorem leads_char (ha : scanAtom unicode s = some (.char low, after))
    (hd : dashOperator? after = none) : Leads unicode s [.char low] after := by
  rw [Leads, scanMembers]
  split <;> simp_all
  split <;> simp_all

section Upper

variable {upper : List Char} (ha : scanAtom unicode s = some (.char low, after))
  (hd : dashOperator? after = some upper)

include ha hd

theorem leads_range (hb : scanAtom unicode upper = some (.char high, rest))
    (hle : ¬ high < low) : Leads unicode s [.range low high] rest := by
  rw [Leads, scanMembers]
  split <;> simp_all [-Char.not_lt]
  split <;> simp_all [-Char.not_lt]
  split <;> simp_all [-Char.not_lt]

theorem leads_rangeSet {members : ShortClass} {negated : Bool}
    (hb : scanAtom unicode upper = some (.set members negated, rest)) :
    Leads unicode s [.char low, .char '-', .set members negated] rest := by
  rw [Leads, scanMembers]
  split <;> simp_all
  split <;> simp_all
  split <;> simp_all

theorem scanMembers_of_reversed (hb : scanAtom unicode upper = some (.char high, rest))
    (hlt : high < low) : scanMembers unicode s = none := by
  rw [scanMembers]
  split <;> simp_all
  split <;> simp_all
  split <;> simp_all

end Upper

theorem leads_single {a : ClassAtom} (ha : scanAtom unicode s = some (a.scanned, after))
    (hset : ∀ members negated, a = .set members negated → False)
    (hd : dashOperator? after = none) : Leads unicode s (ClassPart.single a).members after := by
  obtain ⟨c, hc⟩ := a.exists_char? hset
  obtain ⟨hscanned, hmember⟩ := a.scanned_of_char? hc
  rw [hscanned] at ha
  rw [ClassPart.members, hmember]
  exact leads_char ha hd

/-- Two atoms with an operator between them are a range, or the members of a set, unless
they are the ends of a range in the wrong order. -/
theorem leads_pair {a b : ClassAtom} {upper : List Char}
    (ha : scanAtom unicode s = some (a.scanned, after))
    (hset : ∀ members negated, a = .set members negated → False)
    (hd : dashOperator? after = some upper)
    (hb : scanAtom unicode upper = some (b.scanned, rest)) :
    ((∀ m ∈ (ClassPart.pair a b).members, m.Ordered) ∧
        Leads unicode s (ClassPart.pair a b).members rest) ∨
      ((∃ m ∈ (ClassPart.pair a b).members, ¬ m.Ordered) ∧ scanMembers unicode s = none) := by
  obtain ⟨low, hlow⟩ := a.exists_char? hset
  obtain ⟨hscanned, hmember⟩ := a.scanned_of_char? hlow
  rw [hscanned] at ha
  cases hhigh : b.char? with
  | some high =>
      rw [(b.scanned_of_char? hhigh).1] at hb
      have hmembers : (ClassPart.pair a b).members = [.range low high] := by
        rw [ClassPart.members, hlow, hhigh]
      rw [hmembers]
      by_cases hlt : high < low
      · exact .inr ⟨⟨_, List.mem_singleton_self _, not_not_intro hlt⟩,
          scanMembers_of_reversed ha hd hb hlt⟩
      · exact .inl ⟨List.forall_mem_singleton.mpr hlt, leads_range ha hd hb hlt⟩
  | none =>
      cases b with
      | set set negated =>
          have hmembers : (ClassPart.pair a (.set set negated)).members =
              [.char low, .char '-', .set set negated] := by
            rw [ClassPart.members, hlow, hmember]
            rfl
          rw [hmembers]
          exact .inl ⟨by simp [Member.Ordered], leads_rangeSet ha hd hb⟩
      | _ => exact nomatch hhigh

/-- What is read of the text behind the members in front decides the rest. -/
theorem Leads.iff {lead others : List Member} (h : Leads unicode s lead after)
    (hlead : ∀ m ∈ lead, m.Ordered)
    (hothers : ∀ members rest', scanMembers unicode after = some (members, rest') ↔
      rest' = rest ∧ members = others ∧ ∀ m ∈ members, m.Ordered)
    (members : List Member) (rest' : List Char) :
    scanMembers unicode s = some (members, rest') ↔
      rest' = rest ∧ members = lead ++ others ∧ ∀ m ∈ members, m.Ordered := by
  rw [h, Option.map_eq_some_iff]
  constructor
  · intro hmap
    obtain ⟨⟨more, rest''⟩, hscan, heq⟩ := hmap
    obtain ⟨rfl, rfl⟩ := Prod.mk.inj heq
    obtain ⟨hrest, rfl, hordered⟩ := (hothers more rest'').mp hscan
    exact ⟨hrest, rfl, List.forall_mem_append.mpr ⟨hlead, hordered⟩⟩
  · intro hmembers
    obtain ⟨hrest, rfl, hordered⟩ := hmembers
    have hscan := (hothers others rest').mpr
      ⟨hrest, rfl, (List.forall_mem_append.mp hordered).2⟩
    exact ⟨(others, rest'), hscan, rfl⟩

/-- A class that splits into atoms is accepted exactly if the ranges among its written parts
stand in their order, and then its members are those of the parts. -/
theorem scanMembers_iff_of_splits {atoms : List ClassAtom}
    (h : Splits (AtomText unicode) s atoms (']' :: rest)) (members : List Member)
    (rest' : List Char) : scanMembers unicode s = some (members, rest') ↔
      rest' = rest ∧ members = (writtenParts atoms).flatMap ClassPart.members ∧
        ∀ m ∈ members, m.Ordered := by
  -- One part for each round of the scanner: a set, a character with an operator and another
  -- atom behind it, and a character with no operator behind it.
  fun_induction writtenParts atoms generalizing s members rest' with
  | case1 =>
      cases h
      rw [scanMembers_close, Option.some.injEq, Prod.mk.injEq, eq_comm, @eq_comm _ rest]
      constructor
      · intro h
        obtain ⟨rfl, rfl⟩ := h
        exact ⟨rfl, rfl, fun m hm => nomatch hm⟩
      · exact fun h => ⟨h.2.1, h.1⟩
  | case2 set negated others ih =>
      cases h with
      | cons head tail =>
          exact (leads_set head.scanAtom).iff (List.forall_mem_singleton.mpr trivial) (ih tail)
            members rest'
  | case3 a b others hset ih =>
      cases h with
      | cons head tail =>
          obtain ⟨upper, hupper, hmore⟩ := tail.dashOperator?
          cases hmore with
          | cons next last =>
              rcases leads_pair head.scanAtom hset hupper next.scanAtom with
                ⟨hordered, hleads⟩ | ⟨⟨m, hm, hreversed⟩, hnone⟩
              · exact hleads.iff hordered (ih last) members rest'
              · rw [hnone]
                refine ⟨nofun, fun h => ?_⟩
                obtain ⟨-, rfl, hordered⟩ := h
                exact absurd (hordered m (List.mem_append_left _ hm)) hreversed
  | case4 a others hset hne ih =>
      cases h with
      | cons head tail =>
          have hd := tail.dashOperator?_eq_none fun b more heq => hne b more heq
          have hordered : ∀ m ∈ (ClassPart.single a).members, m.Ordered := by
            obtain ⟨c, hc⟩ := a.exists_char? hset
            rw [ClassPart.members, (a.scanned_of_char? hc).2]
            exact List.forall_mem_singleton.mpr trivial
          exact (leads_single head.scanAtom hset hd).iff hordered (ih tail) members rest'

end Scan

/-! ## The items that are written -/

def ShortClass.items : ShortClass → List ClassItem
  | .digit => [.range '0' '9']
  | .word => [.range '0' '9', .range 'A' 'Z', .range 'a' 'z', .range '_' '_']
  | .space =>
    [.range '\t' '\t', .range '\n' '\n', .range '\x0b' '\x0b', .range '\x0c' '\x0c',
      .range '\r' '\r', .range ' ' ' ', .range '\u00A0' '\u00A0', .range '\u1680' '\u1680',
      .range '\u2000' '\u200A', .range '\u2028' '\u2028', .range '\u2029' '\u2029',
      .range '\u202F' '\u202F', .range '\u205F' '\u205F', .range '\u3000' '\u3000',
      .range '\uFEFF' '\uFEFF']

def Member.items : Member → List ClassItem
  | .char c => [.range c c]
  | .range low high => [.range low high]
  | .set members false => members.items
  | .set members true => [.nested true members.items]

theorem ShortClass.items_ne_nil (members : ShortClass) : members.items ≠ [] := by
  cases members <;> exact List.cons_ne_nil _ _

/-- Every member is written as one item at least. -/
theorem Member.items_ne_nil (m : Member) : m.items ≠ [] := by
  cases m with
  | char c => exact List.cons_ne_nil _ _
  | range low high => exact List.cons_ne_nil _ _
  | set members negated =>
      cases negated with
      | false => exact members.items_ne_nil
      | true => exact List.cons_ne_nil _ _

theorem flatMap_items_ne_nil {members : List Member} (hne : members ≠ []) :
    members.flatMap Member.items ≠ [] := by
  obtain ⟨m, members, rfl⟩ := List.exists_cons_of_ne_nil hne
  rw [List.flatMap_cons]
  exact List.append_ne_nil_of_left_ne_nil m.items_ne_nil _

theorem ShortClass.itemsText (members : ShortClass) : ItemsText members.text members.items := by
  have hplain (c : Char) (h : c ∉ '\\' :: Pattern.classMarks) : CharText [c] c :=
    Pattern.charText_plain h
  have hletter (letter c : Char)
      (h : ∀ after, Pattern.readEscape (letter :: after) = some (c, after)) :
      ItemText ['\\', letter] (.range c c) :=
    .single (Pattern.charText_escaped h)
  have hcode (c : Char) : CharText (hexText c.toNat) c := Pattern.charText_hexText c
  have hone (c : Char) : ItemText (hexText c.toNat) (.range c c) := .single (hcode c)
  cases members with
  | digit => exact .single (.range (hplain '0' (by decide)) (hplain '9' (by decide)) (by decide))
  | word =>
      have h : ItemsText _ _ :=
        .cons (.range (hplain '0' (by decide)) (hplain '9' (by decide)) (by decide)) <|
        .cons (.range (hplain 'A' (by decide)) (hplain 'Z' (by decide)) (by decide)) <|
        .cons (.range (hplain 'a' (by decide)) (hplain 'z' (by decide)) (by decide)) <|
        .single (.single (hplain '_' (by decide)))
      exact h
  | space =>
      have h : ItemsText _ _ :=
        .cons (hletter 't' '\t' fun _ => rfl) <| .cons (hletter 'n' '\n' fun _ => rfl) <|
        .cons (hletter 'v' '\x0b' fun _ => rfl) <| .cons (hletter 'f' '\x0c' fun _ => rfl) <|
        .cons (hletter 'r' '\r' fun _ => rfl) <| .cons (.single (hplain ' ' (by decide))) <|
        .cons (hone '\u00A0') <| .cons (hone '\u1680') <|
        .cons (.range (hcode '\u2000') (hcode '\u200A') (by decide)) <|
        .cons (hone '\u2028') <| .cons (hone '\u2029') <| .cons (hone '\u202F') <|
        .cons (hone '\u205F') <| .cons (hone '\u3000') <| .single (hone '\uFEFF')
      exact h

theorem Member.itemsText {m : Member} (h : m.Ordered) : ItemsText m.text m.items := by
  cases m with
  | char c => exact .single (.single (Pattern.charText_charText c))
  | range low high =>
      exact .single (.range (Pattern.charText_charText low) (Pattern.charText_charText high) h)
  | set members negated =>
      cases negated with
      | false => exact members.itemsText
      | true => exact .single (.negated members.itemsText members.items_ne_nil)

theorem itemsText_flatMap {members : List Member} (h : ∀ m ∈ members, m.Ordered) :
    ItemsText (members.flatMap Member.text) (members.flatMap Member.items) := by
  induction members with
  | nil => exact .nil
  | cons m members ih =>
      obtain ⟨hm, hrest⟩ := List.forall_mem_cons.mp h
      exact (Member.itemsText hm).append (ih hrest)

/-! ## What the items hold -/

theorem range_self (c : Char) (code : Nat) :
    (c.toNat ≤ code ∧ code ≤ c.toNat) ↔ code = c.toNat := by
  omega

theorem ShortClass.anyHolds_items (members : ShortClass) (code : Nat) :
    ClassItem.AnyHolds members.items code ↔ members.Holds code := by
  cases members with
  | digit => simp [items, ClassItem.AnyHolds, ClassItem.Holds, Holds]
  | word =>
      simp only [items, ClassItem.AnyHolds, ClassItem.Holds, Holds, range_self, or_false]
  | space =>
      simp only [items, ClassItem.AnyHolds, ClassItem.Holds, Holds, or_false, List.mem_cons,
        List.not_mem_nil, Char.reduceToNat]
      omega

theorem Member.anyHolds_items_set (members : ShortClass) (negated : Bool) (code : Nat) :
    ClassItem.AnyHolds (Member.set members negated).items code ↔
      (ClassAtom.set members negated).Holds code := by
  cases negated with
  | false => simpa [items, ClassAtom.Holds] using members.anyHolds_items code
  | true =>
      simpa [items, ClassItem.AnyHolds, ClassItem.Holds, ClassAtom.Holds] using
        not_congr (members.anyHolds_items code)

theorem ClassAtom.anyHolds_items (a : ClassAtom) (code : Nat) :
    ClassItem.AnyHolds a.member.items code ↔ a.Holds code := by
  cases a with
  | dash =>
      simp only [member, Member.items, ClassItem.AnyHolds, ClassItem.Holds, Holds, range_self,
        or_false]
  | char c =>
      simp only [member, Member.items, ClassItem.AnyHolds, ClassItem.Holds, Holds, range_self,
        or_false]
  | set members negated => exact Member.anyHolds_items_set members negated code

theorem ClassPart.anyHolds_items (part : ClassPart) (code : Nat) :
    ClassItem.AnyHolds (part.members.flatMap Member.items) code ↔ part.Holds code := by
  cases part with
  | single a => simpa [members, Holds] using a.anyHolds_items code
  | pair a b =>
      have hdash := ClassAtom.anyHolds_items .dash code
      have hboth : ClassItem.AnyHolds
          ([a.member, .char '-', b.member].flatMap Member.items) code ↔
            a.Holds code ∨ code = '-'.toNat ∨ b.Holds code := by
        simp only [List.flatMap_cons, List.flatMap_nil, List.append_nil,
          ClassItem.anyHolds_append, a.anyHolds_items, b.anyHolds_items]
        rw [show Member.char '-' = ClassAtom.dash.member from rfl, hdash]
        rfl
      cases ha : a.char? with
      | none => simpa only [members, Holds, ha] using hboth
      | some low =>
          cases hb : b.char? with
          | none => simpa only [members, Holds, ha, hb] using hboth
          | some high =>
              simp [members, Holds, ha, hb, Member.items, ClassItem.AnyHolds, ClassItem.Holds]

theorem anyHolds_items_parts (parts : List ClassPart) (code : Nat) :
    ClassItem.AnyHolds ((parts.flatMap ClassPart.members).flatMap Member.items) code ↔
      PartsHold parts code := by
  induction parts with
  | nil => simp [ClassItem.AnyHolds, PartsHold]
  | cons part parts ih =>
      rw [List.flatMap_cons, List.flatMap_append, ClassItem.anyHolds_append,
        part.anyHolds_items, ih]
      simp [PartsHold]

/-! ## The two ways of reading a class -/

/-- Nothing behind the atom is read otherwise when the atom is not the right side of a
dash but stands for itself. -/
def ClassAtom.StandsAlone : ClassAtom → List ClassAtom → Prop
  | .dash, rest => rest = []
  | .char _, rest => ∀ b more, rest ≠ .dash :: b :: more
  | .set _ _, _ => True

/-- Where a set and a dash come before an atom, that atom stands alone. -/
def Settled : List ClassAtom → Prop
  | [] => True
  | a :: .dash :: b :: rest => (a.char? = none → b.StandsAlone rest) ∧ Settled rest
  | _ :: rest => Settled rest

theorem partsHold_cons (part : ClassPart) (parts : List ClassPart) (code : Nat) :
    PartsHold (part :: parts) code ↔ part.Holds code ∨ PartsHold parts code := by
  simp [PartsHold]

theorem writtenParts_of_standsAlone {b : ClassAtom} {rest : List ClassAtom}
    (h : b.StandsAlone rest) : writtenParts (b :: rest) = .single b :: writtenParts rest := by
  cases b with
  | dash =>
      obtain rfl : rest = [] := h
      rfl
  | char c => exact writtenParts_single rfl h
  | set members negated => rfl

theorem writtenParts_dash {b : ClassAtom} {rest : List ClassAtom} (h : b.StandsAlone rest) :
    writtenParts (.dash :: b :: rest) = .single .dash :: writtenParts (b :: rest) := by
  refine writtenParts_single rfl ?_
  rintro c more heq
  cases heq
  exact absurd h (by simp [ClassAtom.StandsAlone])

/-- Where every such atom stands alone, the two ways come to the same. -/
theorem partsHold_writtenParts {atoms : List ClassAtom} (h : Settled atoms) (code : Nat) :
    PartsHold (writtenParts atoms) code ↔ PartsHold (ecmaParts atoms) code := by
  fun_induction ecmaParts atoms with
  | case1 => rfl
  | case2 a b rest ih =>
      obtain ⟨halone, hrest⟩ := h
      cases ha : a.char? with
      | some low => rw [writtenParts_pair ha, partsHold_cons, partsHold_cons, ih hrest]
      | none =>
          -- The set is a part of its own, and so are the dash and the atom behind it.
          have hb : b.StandsAlone rest := halone ha
          have hset : writtenParts (a :: .dash :: b :: rest) =
              .single a :: writtenParts (.dash :: b :: rest) := by
            cases a with
            | set members negated => rfl
            | _ => exact nomatch ha
          have hpair : ClassPart.Holds (.pair a b) code ↔
              a.Holds code ∨ code = '-'.toNat ∨ b.Holds code := by
            simp [ClassPart.Holds, ha]
          rw [hset, writtenParts_dash hb, writtenParts_of_standsAlone hb, partsHold_cons,
            partsHold_cons, partsHold_cons, partsHold_cons, ih hrest, hpair]
          simp [ClassPart.Holds, ClassAtom.Holds, or_assoc]
  | case3 a rest hne ih =>
      have hrest : Settled rest := by
        rw [Settled] at h
        · exact h
        · exact hne
      have hwritten : writtenParts (a :: rest) = .single a :: writtenParts rest := by
        cases a with
        | set members negated => rfl
        | _ => exact writtenParts_single rfl fun b more heq => hne b more heq
      rw [hwritten, partsHold_cons, partsHold_cons, ih hrest]

/-! ## Classes -/

theorem itemsText_everythingText :
    ItemsText everythingText [.range '\x00' (Char.ofNat 0x10FFFF)] := by
  have hnull : CharText ['\\', 'x', '0', '0'] '\x00' := Pattern.charText_escaped fun _ => rfl
  exact .single (.range hnull (Pattern.charText_hexText (Char.ofNat 0x10FFFF)) (by decide))

/-- A class denotes what its parts hold, also when it has none and is written as the
class of everything or of nothing. -/
theorem denotes_text {mode : Pattern.Mode} (hcase : mode.ignoreCase = false)
    (hunicode : mode.unicode = true) (negated : Bool) {parts : List ClassPart}
    (h : ∀ m ∈ parts.flatMap ClassPart.members, m.Ordered) :
    Denotes mode (Token.bracket negated (parts.flatMap ClassPart.members)).text
      (ClassHolds negated parts) := by
  have hitems := itemsText_flatMap h
  have hholds := anyHolds_items_parts parts
  cases hm : parts.flatMap ClassPart.members with
  | nil =>
      have hnone (code : Nat) : ¬ PartsHold parts code := by
        rw [← hholds, hm]
        exact id
      refine (Pattern.denotes_bracketText hcase hunicode (!negated) itemsText_everythingText
        (List.cons_ne_nil _ _)).congr fun code hcode => ?_
      have hall : ClassItem.AnyHolds [.range '\x00' (Char.ofNat 0x10FFFF)] code :=
        .inl ⟨Nat.zero_le _, Nat.le_of_lt_succ hcode⟩
      cases negated <;> simp [ClassHolds, hall, hnone]
  | cons m members =>
      rw [hm] at hitems hholds
      refine (Pattern.denotes_bracketText hcase hunicode negated hitems
        (flatMap_items_ne_nil (List.cons_ne_nil m members))).congr fun code _ => ?_
      simp only [hholds]
      exact Iff.rfl

theorem dropCaret_of_head?_ne {body : List Char} (h : body.head? ≠ some '^') :
    dropCaret body = (false, body) := by
  rw [dropCaret]
  rintro tail rfl
  exact h rfl

theorem exists_classText {body rest : List Char} {members : List Member}
    (h : scanMembers false (dropCaret body).2 = some (members, rest)) :
    ∃ atoms, ClassText body (dropCaret body).1 atoms rest := by
  obtain ⟨atoms, hsplits⟩ := exists_splits h
  have hatoms := splits_iff_atomsText.mp hsplits
  refine ⟨atoms, ?_⟩
  by_cases hcaret : body.head? = some '^'
  · obtain ⟨tail, rfl⟩ := List.head?_eq_some_iff.mp hcaret
    exact .negated hatoms
  · rw [dropCaret_of_head?_ne hcaret] at hatoms ⊢
    exact .plain hcaret hatoms

theorem ClassText.atomsText {body rest : List Char} {negated : Bool} {atoms : List ClassAtom}
    (h : ClassText body negated atoms rest) :
    (dropCaret body).1 = negated ∧ AtomsText (dropCaret body).2 atoms rest := by
  cases h with
  | plain hcaret hatoms =>
      rw [dropCaret_of_head?_ne hcaret]
      exact ⟨rfl, hatoms⟩
  | negated hatoms => exact ⟨rfl, hatoms⟩

theorem enginePattern?_bracket {flags : Flags} {body text : List Char}
    (h : enginePattern? flags ('[' :: body) = some text) :
    ∃ members rest more, scanMembers flags.unicode (dropCaret body).2 = some (members, rest) ∧
      enginePattern? flags rest = some more ∧
      text = (Token.bracket (dropCaret body).1 members).text ++ more := by
  obtain ⟨tokens, htokens, rfl⟩ := Option.map_eq_some_iff.mp h
  rw [scanTokens] at htokens
  split at htokens
  · next members rest hmembers =>
      obtain ⟨others, hothers, rfl⟩ := Option.map_eq_some_iff.mp htokens
      exact ⟨members, rest, _, hmembers, by rw [enginePattern?, hothers]; rfl, rfl⟩
  · cases htokens

theorem denotes_written {flags : Flags} (hunicode : flags.unicode = false)
    (hcase : flags.ignoreCase = false) {body text rest : List Char} {negated : Bool}
    {atoms : List ClassAtom} (h : enginePattern? flags ('[' :: body) = some text)
    (hclass : ClassText body negated atoms rest) :
    ∃ written more, text = written ++ more ∧ enginePattern? flags rest = some more ∧
      Denotes flags.mode written (ClassHolds negated (writtenParts atoms)) := by
  obtain ⟨members, rest', more, hmembers, hmore, rfl⟩ := enginePattern?_bracket h
  obtain ⟨rfl, hatoms⟩ := hclass.atomsText
  rw [hunicode] at hmembers
  obtain ⟨rfl, rfl, hordered⟩ :=
    (scanMembers_iff_of_splits (splits_iff_atomsText.mpr hatoms) _ _).mp hmembers
  exact ⟨_, more, rfl, hmore, denotes_text hcase rfl _ hordered⟩

/-- Every class that is accepted is the text of a class, and is written as a class of
the engine that denotes what its written parts hold: the set that the grammar gives it,
if behind a set and a dash no atom is read on with. -/
theorem class_denotes {flags : Flags} (hunicode : flags.unicode = false)
    (hcase : flags.ignoreCase = false) {body text : List Char}
    (h : enginePattern? flags ('[' :: body) = some text) :
    (∃ negated atoms rest, ClassText body negated atoms rest) ∧
      ∀ negated atoms rest, ClassText body negated atoms rest →
        ∃ written more, text = written ++ more ∧ enginePattern? flags rest = some more ∧
          Denotes flags.mode written (ClassHolds negated (writtenParts atoms)) ∧
          (Settled atoms → Denotes flags.mode written (ClassHolds negated (ecmaParts atoms))) := by
  refine ⟨?_, fun negated atoms rest hclass => ?_⟩
  · obtain ⟨members, rest, more, hmembers, -, -⟩ := enginePattern?_bracket h
    rw [hunicode] at hmembers
    obtain ⟨atoms, hclass⟩ := exists_classText hmembers
    exact ⟨_, atoms, rest, hclass⟩
  · obtain ⟨written, more, htext, hmore, hdenotes⟩ := denotes_written hunicode hcase h hclass
    refine ⟨written, more, htext, hmore, hdenotes, fun hsettled => ?_⟩
    refine hdenotes.congr fun code _ => ?_
    rw [ClassHolds, ClassHolds, partsHold_writtenParts hsettled]

/-- Digits, a dash and a letter: the dash belongs to the class. -/
theorem class_denotes_digits_dash_letter :
    ∃ written, enginePattern? {} ('[' :: ['\\', 'd', '-', 'a', ']']) = some written ∧
      Denotes (Flags.mode {}) written
        (ClassHolds false [.pair (.set .digit false) (.char 'a')]) := by
  have h : enginePattern? {} ('[' :: ['\\', 'd', '-', 'a', ']']) =
      some ['[', '0', '-', '9', '\\', '-', 'a', ']'] := by
    decide +kernel
  have hclass : ClassText ['\\', 'd', '-', 'a', ']'] false
      [.set .digit false, .dash, .char 'a'] [] :=
    .plain (by decide) (.cons (.set (by decide) _) (.cons (.dash _)
      (.cons (.char (by decide) _) (.close []))))
  have hsettled : Settled [.set .digit false, .dash, .char 'a'] :=
    ⟨fun _ b more heq => (nomatch heq), trivial⟩
  obtain ⟨-, hdenotes⟩ := class_denotes rfl rfl h
  obtain ⟨written, more, htext, hmore, -, hecma⟩ := hdenotes _ _ _ hclass
  have hnone : enginePattern? {} [] = some [] := by decide +kernel
  rw [hnone] at hmore
  obtain rfl := Option.some.inj hmore
  rw [List.append_nil] at htext
  exact ⟨written, htext ▸ h, hecma hsettled⟩

/-- But behind digits and a dash, a letter and another dash are read as the start of a
range: the class of digits, a dash, `a` and `z` is written with all letters. -/
theorem class_denotes_too_much :
    ∃ text, enginePattern? {} ('[' :: ['\\', 'd', '-', 'a', '-', 'z', ']']) = some text ∧
      ClassText ['\\', 'd', '-', 'a', '-', 'z', ']'] false
        [.set .digit false, .dash, .char 'a', .dash, .char 'z'] [] ∧
      ¬ Denotes (Flags.mode {}) text (ClassHolds false
        (ecmaParts [.set .digit false, .dash, .char 'a', .dash, .char 'z'])) := by
  have h : enginePattern? {} ('[' :: ['\\', 'd', '-', 'a', '-', 'z', ']']) =
      some ['[', '0', '-', '9', '\\', '-', 'a', '-', 'z', ']'] := by
    decide +kernel
  have hclass : ClassText ['\\', 'd', '-', 'a', '-', 'z', ']'] false
      [.set .digit false, .dash, .char 'a', .dash, .char 'z'] [] :=
    .plain (by decide) (.cons (.set (by decide) _) (.cons (.dash _)
      (.cons (.char (by decide) _) (.cons (.dash _) (.cons (.char (by decide) _) (.close []))))))
  refine ⟨_, h, hclass, fun hecma => ?_⟩
  obtain ⟨written, more, htext, hmore, hdenotes⟩ := denotes_written rfl rfl h hclass
  have hnone : enginePattern? {} [] = some [] := by decide +kernel
  obtain rfl := Option.some.inj (hnone.symm.trans hmore)
  rw [List.append_nil] at htext
  rw [htext] at hecma
  have hb := (hdenotes.unique hecma 'b'.toNat (by decide)).mp
    ⟨.pair (.char 'a') (.char 'z'), by decide, by decide, by decide⟩
  obtain ⟨part, hpart, hholds⟩ := hb
  simp only [ecmaParts, List.mem_cons, List.not_mem_nil, or_false] at hpart
  rcases hpart with rfl | rfl | rfl
  · rcases hholds with hholds | hholds | hholds
    · exact absurd hholds.2 (by decide)
    · exact absurd hholds (by decide)
    · exact absurd (show 'b'.toNat = 'a'.toNat from hholds) (by decide)
  · exact absurd (show 'b'.toNat = '-'.toNat from hholds) (by decide)
  · exact absurd (show 'b'.toNat = 'z'.toNat from hholds) (by decide)

end ParseView.Regexp
