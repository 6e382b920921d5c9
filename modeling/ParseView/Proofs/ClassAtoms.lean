import ParseView.Proofs.EscapeText

/-!
# The atoms of a class

The body of a class is a run of atoms: characters, sets with a letter of their own, and
dashes that are not escaped. `AtomsText` says which text is which run where the flag `u`
is off, one atom after the other, and knows nothing of ranges; `AtomText` says the same of
one atom under either flag, and `Splits` puts any pieces of text one after the other. The
scanner accepts no class that does not split into atoms, and where it takes an atom from a
text, it is the first one of those that the text splits into.
-/

namespace ParseView.Regexp

/-! ## Atoms and their texts -/

/-- What a class is made of. The dash is the one that is not escaped. -/
inductive ClassAtom where
  | dash
  | char (c : Char)
  | set (members : ShortClass) (negated : Bool)
deriving DecidableEq, Repr

/-- The characters with a letter of their own; inside a class one of them is the
backspace. -/
def controls : List (Char × Char) :=
  [('b', '\x08'), ('t', '\t'), ('n', '\n'), ('v', '\x0b'), ('f', '\x0c'), ('r', '\r')]

/-- The text of an atom in front of some text. Octal escapes, escaped letters without a
meaning and codes in braces are left out: no class that holds one is accepted. -/
inductive Spells : List Char → ClassAtom → List Char → Prop where
  | dash (after : List Char) : Spells ['-'] .dash after
  | char {c : Char} (h : c ∉ ['-', '\\', ']']) (after : List Char) : Spells [c] (.char c) after
  | set {letter : Char} {members : ShortClass} {negated : Bool}
      (h : (letter, members, negated) ∈ shorthands) (after : List Char) :
      Spells ['\\', letter] (.set members negated) after
  | control {letter c : Char} (h : (letter, c) ∈ controls) (after : List Char) :
      Spells ['\\', letter] (.char c) after
  | null {after : List Char} (h : ∀ d ∈ after.head?, Text.isAsciiDigit d = false) :
      Spells ['\\', '0'] (.char '\x00') after
  | letter {c : Char} (h : Text.isAsciiLetter c = true) (after : List Char) :
      Spells ['\\', 'c', c] (.char (Char.ofNat (c.toNat % 32))) after
  | byte {digits : List Char} {c : Char} (hlength : digits.length = 2)
      (h : Text.DigitRun 16 digits c.toNat) (after : List Char) :
      Spells ('\\' :: 'x' :: digits) (.char c) after
  | unit {digits : List Char} {c : Char} (hlength : digits.length = 4)
      (h : Text.DigitRun 16 digits c.toNat) (after : List Char) :
      Spells ('\\' :: 'u' :: digits) (.char c) after
  | identity {c : Char} (h : Text.isAsciiAlphanumeric c = false) (after : List Char) :
      Spells ['\\', c] (.char c) after

/-- The text of atoms up to the closing bracket, and the text behind it. -/
inductive AtomsText : List Char → List ClassAtom → List Char → Prop where
  | close (rest : List Char) : AtomsText (']' :: rest) [] rest
  | cons {spelled text rest : List Char} {atom : ClassAtom} {atoms : List ClassAtom}
      (head : Spells spelled atom text) (tail : AtomsText text atoms rest) :
      AtomsText (spelled ++ text) (atom :: atoms) rest

/-- The text of a class without its opening bracket: whether it is negated, its atoms,
and the text behind it. -/
inductive ClassText : List Char → Bool → List ClassAtom → List Char → Prop where
  | plain {body rest : List Char} {atoms : List ClassAtom} (hcaret : body.head? ≠ some '^')
      (h : AtomsText body atoms rest) : ClassText body false atoms rest
  | negated {body rest : List Char} {atoms : List ClassAtom} (h : AtomsText body atoms rest) :
      ClassText ('^' :: body) true atoms rest

/-! ## Texts in pieces -/

/-- The text begins with pieces that spell these items, one after the other, and `rest` is
behind them. -/
inductive Splits {α : Type} (spells : List Char → α → List Char → Prop) :
    List Char → List α → List Char → Prop where
  | nil (rest : List Char) : Splits spells rest [] rest
  | cons {spelled text rest : List Char} {item : α} {items : List α}
      (head : spells spelled item text) (tail : Splits spells text items rest) :
      Splits spells (spelled ++ text) (item :: items) rest

theorem Splits.exists_append {α : Type} {spells : List Char → α → List Char → Prop}
    {s rest : List Char} {items : List α} (h : Splits spells s items rest) :
    ∃ lead, s = lead ++ rest := by
  induction h with
  | nil rest => exact ⟨[], rfl⟩
  | @cons spelled text rest item items head tail ih =>
      obtain ⟨lead, rfl⟩ := ih
      exact ⟨spelled ++ lead, (List.append_assoc ..).symm⟩

theorem Splits.exists_of_mem {α : Type} {spells : List Char → α → List Char → Prop}
    {s rest : List Char} {items : List α} (h : Splits spells s items rest) {item : α}
    (hitem : item ∈ items) : ∃ spelled after, spells spelled item after := by
  induction h with
  | nil => exact nomatch hitem
  | @cons spelled text _ _ _ head tail ih =>
      rcases List.mem_cons.mp hitem with rfl | hitem
      · exact ⟨spelled, text, head⟩
      · exact ih hitem

/-! ## The text of an atom -/

/-- The atom as it is scanned: a dash is a character. -/
def ClassAtom.scanned : ClassAtom → Atom
  | .dash => .char '-'
  | .char c => .char c
  | .set members negated => .set members negated

/-- The atom that an escape is inside a class. -/
def Escape.atom? : Escape → Option ClassAtom
  | .char c => some (.char c)
  | .set members negated => some (.set members negated)
  | .boundary false => some (.char '\x08')
  | .boundary true => none

/-- The text of an atom in front of some text. -/
inductive AtomText (unicode : Bool) : List Char → ClassAtom → List Char → Prop where
  | dash (after : List Char) : AtomText unicode ['-'] .dash after
  | char {c : Char} (h : c ∉ ['-', '\\', ']']) (after : List Char) :
      AtomText unicode [c] (.char c) after
  | escape {spelled after : List Char} {e : Escape} {atom : ClassAtom}
      (h : EscapeText unicode spelled e after) (hatom : e.atom? = some atom) :
      AtomText unicode ('\\' :: spelled) atom after

/-- Where the flag `u` is off, these are the atoms of a class without codes in braces. -/
theorem atomText_iff_spells {spelled after : List Char} {atom : ClassAtom} :
    AtomText false spelled atom after ↔ Spells spelled atom after := by
  constructor
  · intro h
    cases h with
    | dash => exact .dash after
    | char h => exact .char h after
    | @escape spelled _ e _ h hatom =>
        cases h with
        | set hmem => cases hatom; exact .set hmem after
        | boundary => cases hatom; exact .control (by decide) after
        | noBoundary => exact nomatch hatom
        | control hmem => cases hatom; exact .control (.tail _ hmem) after
        | null hdigit => cases hatom; exact .null hdigit
        | letter hletter => cases hatom; exact .letter hletter after
        | byte hlength hrun => cases hatom; exact .byte hlength hrun after
        | unit hlength hrun => cases hatom; exact .unit hlength hrun after
        | braced hunicode => exact nomatch hunicode
        | identity hc => cases hatom; exact .identity hc after
  · intro h
    cases h with
    | dash => exact .dash after
    | char h => exact .char h after
    | set hmem => exact .escape (.set hmem after) rfl
    | control hmem =>
        rcases List.mem_cons.mp hmem with heq | hmem
        · obtain ⟨rfl, rfl⟩ := Prod.mk.inj heq
          exact .escape (.boundary after) rfl
        · exact .escape (.control hmem after) rfl
    | null hdigit => exact .escape (.null hdigit) rfl
    | letter hletter => exact .escape (.letter hletter after) rfl
    | byte hlength hrun => exact .escape (.byte hlength hrun after) rfl
    | unit hlength hrun => exact .escape (.unit hlength hrun after) rfl
    | identity hc => exact .escape (.identity hc after) rfl

theorem splits_iff_atomsText {s rest : List Char} {atoms : List ClassAtom} :
    Splits (AtomText false) s atoms (']' :: rest) ↔ AtomsText s atoms rest := by
  constructor
  · intro h
    generalize hbehind : ']' :: rest = behind at h
    induction h with
    | nil => rw [← hbehind]; exact .close rest
    | cons head tail ih => exact .cons (atomText_iff_spells.mp head) (ih hbehind)
  · intro h
    induction h with
    | close rest => exact .nil (']' :: rest)
    | cons head tail ih => exact .cons (atomText_iff_spells.mpr head) ih

/-! ## Atoms are what is scanned -/

section Scan

variable {unicode : Bool} {s spelled after rest : List Char} {atom : ClassAtom}
  {atoms : List ClassAtom}

theorem AtomText.scanAtom (h : AtomText unicode spelled atom after) :
    Regexp.scanAtom unicode (spelled ++ after) = some (atom.scanned, after) := by
  cases h with
  | dash => rfl
  | char h =>
      simp only [List.mem_cons, List.not_mem_nil, or_false, not_or] at h
      show Regexp.scanAtom unicode (_ :: after) = _
      rw [Regexp.scanAtom]
      · rfl
      · exact h.2.2
      · exact h.2.1
  | @escape spelled _ e _ h hatom =>
      show Regexp.scanAtom unicode ('\\' :: (spelled ++ after)) = _
      rw [Regexp.scanAtom, h.scanEscape]
      cases e with
      | char c => cases hatom; rfl
      | set members negated => cases hatom; rfl
      | boundary negated =>
          cases negated with
          | false => cases hatom; rfl
          | true => exact nomatch hatom

theorem exists_atomText {a : Atom} (h : scanAtom unicode s = some (a, after)) :
    (a = .close ∧ s = ']' :: after) ∨
      ∃ spelled atom, AtomText unicode spelled atom after ∧ s = spelled ++ after ∧
        atom.scanned = a := by
  rw [scanAtom.eq_def] at h
  split at h
  · exact nomatch h
  · obtain ⟨rfl, rfl⟩ := Prod.mk.inj (Option.some.inj h)
    exact .inl ⟨rfl, rfl⟩
  · next tail =>
      have hescape {e : Escape} {rest : List Char} (atom : ClassAtom)
          (hscan : scanEscape unicode tail = some (e, rest)) (hatom : e.atom? = some atom)
          (h : some (atom.scanned, rest) = some (a, after)) :
          ∃ spelled atom, AtomText unicode spelled atom after ∧ '\\' :: tail = spelled ++ after ∧
            atom.scanned = a := by
        obtain ⟨rfl, rfl⟩ := Prod.mk.inj (Option.some.inj h)
        obtain ⟨spelled, htext, rfl⟩ := exists_escapeText hscan
        exact ⟨'\\' :: spelled, atom, .escape htext hatom, rfl, rfl⟩
      split at h
      · next c rest hscan => exact .inr (hescape (.char c) hscan rfl h)
      · next members negated rest hscan =>
          exact .inr (hescape (.set members negated) hscan rfl h)
      · next rest hscan => exact .inr (hescape (.char '\x08') hscan rfl h)
      · exact nomatch h
      · exact nomatch h
  · next c rest hclose hslash =>
      obtain ⟨rfl, rfl⟩ := Prod.mk.inj (Option.some.inj h)
      by_cases hdash : c = '-'
      · subst hdash
        exact .inr ⟨['-'], .dash, .dash rest, rfl, rfl⟩
      · exact .inr ⟨[c], .char c, .char (by simp_all) rest, rfl, rfl⟩

/-- Only a dash that is not escaped begins with one, and no atom with the closing
bracket. -/
theorem AtomText.head (h : AtomText unicode spelled atom after) :
    ∃ first tail, spelled = first :: tail ∧ first ≠ ']' ∧
      (first = '-' → atom = .dash ∧ tail = []) := by
  cases h with
  | dash => exact ⟨'-', [], rfl, by decide, fun _ => ⟨rfl, rfl⟩⟩
  | char h =>
      simp only [List.mem_cons, List.not_mem_nil, or_false, not_or] at h
      exact ⟨_, _, rfl, h.2.2, fun hdash => absurd hdash h.1⟩
  | escape => exact ⟨'\\', _, rfl, by decide, fun hdash => absurd hdash (by decide)⟩

/-- A dash is an operator where another atom stands behind it. -/
theorem Splits.dashOperator? {b : ClassAtom} {more : List ClassAtom}
    (h : Splits (AtomText unicode) s (.dash :: b :: more) (']' :: rest)) :
    ∃ upper, Regexp.dashOperator? s = some upper ∧
      Splits (AtomText unicode) upper (b :: more) (']' :: rest) := by
  cases h with
  | @cons spelled text _ _ _ head tail =>
      have hspelled : spelled = ['-'] := by
        cases head with
        | dash => rfl
        | @escape _ _ e _ _ hatom => cases e with
          | boundary negated => cases negated <;> exact nomatch hatom
          | _ => exact nomatch hatom
      refine ⟨text, ?_, tail⟩
      cases tail with
      | cons next others =>
          obtain ⟨first, last, rfl, hclose, -⟩ := next.head
          rw [hspelled]
          exact if_neg hclose

theorem Splits.dashOperator?_eq_none
    (h : Splits (AtomText unicode) s atoms (']' :: rest))
    (hne : ∀ b more, atoms ≠ .dash :: b :: more) : Regexp.dashOperator? s = none := by
  cases h with
  | nil => rfl
  | @cons _ text _ atom more head tail =>
      obtain ⟨first, last, rfl, -, hdash⟩ := head.head
      by_cases hfirst : first = '-'
      · obtain ⟨rfl, rfl⟩ := hdash hfirst
        subst hfirst
        cases tail with
        | nil => rfl
        | cons next others => exact absurd rfl (hne _ _)
      · rw [Regexp.dashOperator?.eq_def]
        split
        · next heq => exact absurd (List.cons.inj heq).1 hfirst
        · rfl

/-! ## Classes split into atoms -/

theorem eq_of_dashOperator? {upper : List Char} (h : dashOperator? s = some upper) :
    s = '-' :: upper := by
  rw [Regexp.dashOperator?.eq_def] at h
  split at h
  · obtain ⟨-, h⟩ := Option.ite_none_left_eq_some.mp h
    rw [Option.some.inj h]
  · exact nomatch h

theorem exists_splits_of_scanAtom {a : Atom} (ha : scanAtom unicode s = some (a, after))
    (hne : a ≠ .close) (htail : ∃ atoms, Splits (AtomText unicode) after atoms rest) :
    ∃ atoms, Splits (AtomText unicode) s atoms rest := by
  obtain ⟨atoms, htail⟩ := htail
  rcases exists_atomText ha with ⟨hclose, -⟩ | ⟨spelled, atom, hspells, rfl, -⟩
  · exact absurd hclose hne
  · exact ⟨atom :: atoms, .cons hspells htail⟩

theorem exists_splits_of_dashOperator? {upper : List Char} (hd : dashOperator? s = some upper)
    (htail : ∃ atoms, Splits (AtomText unicode) upper atoms rest) :
    ∃ atoms, Splits (AtomText unicode) s atoms rest := by
  obtain ⟨atoms, htail⟩ := htail
  rw [eq_of_dashOperator? hd]
  exact ⟨.dash :: atoms, .cons (.dash upper) htail⟩

/-- Every class that is accepted splits into atoms up to its closing bracket. -/
theorem exists_splits {members : List Member}
    (h : scanMembers unicode s = some (members, rest)) :
    ∃ atoms, Splits (AtomText unicode) s atoms (']' :: rest) := by
  fun_induction scanMembers unicode s generalizing members with
  | case1 => cases h
  | case2 s after ha =>
      obtain ⟨-, rfl⟩ := Prod.mk.inj (Option.some.inj h)
      rcases exists_atomText ha with ⟨-, rfl⟩ | ⟨spelled, atom, -, -, hscanned⟩
      · exact ⟨[], .nil _⟩
      · cases atom <;> cases hscanned
  | case3 s _ _ after ha ih =>
      obtain ⟨⟨more, _⟩, hs, heq⟩ := Option.map_eq_some_iff.mp h
      obtain ⟨-, rfl⟩ := Prod.mk.inj heq
      exact exists_splits_of_scanAtom ha (by simp) (ih hs)
  | case4 s low after ha hd ih =>
      obtain ⟨⟨more, _⟩, hs, heq⟩ := Option.map_eq_some_iff.mp h
      obtain ⟨-, rfl⟩ := Prod.mk.inj heq
      exact exists_splits_of_scanAtom ha (by simp) (ih hs)
  | case5 => cases h
  | case6 s low after ha upper hd high after' hb hle ih =>
      obtain ⟨⟨more, _⟩, hs, heq⟩ := Option.map_eq_some_iff.mp h
      obtain ⟨-, rfl⟩ := Prod.mk.inj heq
      have hupper := exists_splits_of_scanAtom hb (by simp) (ih hs)
      exact exists_splits_of_scanAtom ha (by simp) (exists_splits_of_dashOperator? hd hupper)
  | case7 s low after ha upper hd _ _ after' hb ih =>
      obtain ⟨⟨more, _⟩, hs, heq⟩ := Option.map_eq_some_iff.mp h
      obtain ⟨-, rfl⟩ := Prod.mk.inj heq
      have hupper := exists_splits_of_scanAtom hb (by simp) (ih hs)
      exact exists_splits_of_scanAtom ha (by simp) (exists_splits_of_dashOperator? hd hupper)
  | case8 => cases h
  | case9 => cases h

end Scan

end ParseView.Regexp
