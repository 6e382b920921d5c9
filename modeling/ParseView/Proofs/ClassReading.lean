import ParseView.Pattern.Expr
import ParseView.Pattern.Reader
import ParseView.Proofs.ClassAtoms
import ParseView.Regexp.EngineSyntax

/-!
# How the engine reads a written class

The text of a class is a run of items, each a character, a range of two characters or a
class of its own. Every character is written so that it is no operator where it stands,
so a run of items is read as these items, whatever they are and whatever stands behind
them, and a class denotes the union of what its items hold, or everything else. A class
with nothing between its brackets is none: the engine would take its last bracket for a
member, so a class is read as one if it has items.
-/

namespace ParseView.Pattern

/-! ## Characters -/

/-- What begins something else than a character of a class, alone or doubled. -/
def classMarks : List Char := '[' :: ']' :: '^' :: setOperators

/-- A text of a class that is read as the character `c`, and that no mark begins. -/
structure CharText (s : List Char) (c : Char) : Prop where
  head : ∃ first tail, s = first :: tail ∧ first ∉ classMarks
  read : ∀ after, readClassChar (s ++ after) = some (c, after)

theorem charText_plain {c : Char} (h : c ∉ '\\' :: classMarks) : CharText [c] c := by
  obtain ⟨hslash, hmark⟩ := not_or.mp (mt List.mem_cons.mpr h)
  have hbracket : ¬ (c = '[' ∨ c = ']') := by
    rintro (rfl | rfl)
    · exact hmark (by decide)
    · exact hmark (by decide)
  refine ⟨⟨c, [], rfl, hmark⟩, fun after => ?_⟩
  show readClassChar (c :: after) = some (c, after)
  rw [readClassChar]
  · exact if_neg hbracket
  · exact hslash

theorem charText_escaped {s : List Char} {c : Char}
    (h : ∀ after, readEscape (s ++ after) = some (c, after)) : CharText ('\\' :: s) c :=
  ⟨⟨'\\', s, rfl, by decide⟩, h⟩

/-! ### Characters by their codes -/

theorem charOfHex?_of_digitRun {digits : List Char} {c : Char} (hne : digits ≠ [])
    (h : Text.DigitRun 16 digits c.toNat) : charOfHex? digits = some c := by
  obtain ⟨hdigits, hnumber⟩ := Regexp.digitRun_iff.mp h
  have hcode : hexCode digits = c.toNat := hnumber.symm
  have hvalid : c.toNat.isValidChar := c.valid
  rw [charOfHex?, hcode, if_pos ⟨by simp [hne], hdigits, hvalid⟩, Char.ofNat_toNat]

theorem charText_code {digits : List Char} {c : Char} (hne : digits ≠ [])
    (h : Text.DigitRun 16 digits c.toNat) : CharText ('\\' :: 'x' :: '{' :: (digits ++ ['}'])) c := by
  refine charText_escaped fun after => ?_
  have hdigits := List.all_eq_true.mp (Regexp.digitRun_iff.mp h).1
  obtain ⟨htake, hdrop⟩ := Text.span_isHexDigit_brace hdigits after
  have htext : 'x' :: '{' :: (digits ++ ['}']) ++ after = 'x' :: '{' :: (digits ++ '}' :: after) := by
    simp
  rw [htext, readEscape, readHex, hdrop, htake, charOfHex?_of_digitRun hne h]
  rfl

/-- The digits that are written for a code. -/
theorem digitRun_hexText (code : Nat) :
    Text.DigitRun 16 ((Nat.toDigits 16 code).map Char.toUpper) code :=
  (Text.digitRun_toDigits (by decide) code).map_toUpper (by decide)

theorem hexText_digits_ne_nil (code : Nat) : (Nat.toDigits 16 code).map Char.toUpper ≠ [] := by
  simp [Nat.toDigits_ne_nil]

theorem charText_hexText (c : Char) : CharText (Regexp.hexText c.toNat) c :=
  charText_code (hexText_digits_ne_nil c.toNat) (digitRun_hexText c.toNat)

/-- A punctuation mark behind a backslash stands for itself. -/
theorem charText_punctuation {c : Char} (h : Text.isAsciiPunctuation c = true)
    (hangle : c ≠ '<' ∧ c ≠ '>') : CharText ['\\', c] c := by
  have hletter {d : Char} (hd : Text.isAsciiPunctuation d = false) : c ≠ d := by
    rintro rfl
    rw [hd] at h
    exact Bool.false_ne_true h
  refine charText_escaped fun after => ?_
  show readEscape (c :: after) = some (c, after)
  rw [readEscape]
  · exact if_pos ⟨h, hangle⟩
  all_goals exact hletter (by decide)

theorem charText_charText (c : Char) : CharText (Regexp.charText c) c := by
  rw [Regexp.charText]
  split
  · next h => exact charText_punctuation h.1 h.2
  split
  · exact charText_hexText c
  · next hmark _ =>
      refine charText_plain fun hc => hmark ?_
      have hsigns : ('\\' :: classMarks).all
          (fun d => Text.isAsciiPunctuation d && d != '<' && d != '>') = true := by
        decide
      simpa [and_assoc] using List.all_eq_true.mp hsigns c hc

/-! ## Items -/

mutual

/-- A text that is read as one item. -/
inductive ItemText : List Char → ClassItem → Prop where
  | single {s : List Char} {c : Char} (h : CharText s c) : ItemText s (.range c c)
  | range {s s' : List Char} {low high : Char} (hlow : CharText s low)
      (hhigh : CharText s' high) (hle : ¬ high < low) :
      ItemText (s ++ '-' :: s') (.range low high)
  | negated {s : List Char} {items : List ClassItem} (h : ItemsText s items)
      (hne : items ≠ []) : ItemText ('[' :: '^' :: (s ++ [']'])) (.nested true items)

inductive ItemsText : List Char → List ClassItem → Prop where
  | nil : ItemsText [] []
  | cons {s s' : List Char} {item : ClassItem} {items : List ClassItem}
      (head : ItemText s item) (tail : ItemsText s' items) : ItemsText (s ++ s') (item :: items)

end

theorem ItemsText.single {s : List Char} {item : ClassItem} (h : ItemText s item) :
    ItemsText s [item] := by
  simpa using ItemsText.cons h .nil

theorem ItemsText.append {s s' : List Char} {items items' : List ClassItem}
    (h : ItemsText s items) (h' : ItemsText s' items') : ItemsText (s ++ s') (items ++ items') := by
  induction items generalizing s with
  | nil => cases h; exact h'
  | cons item items ih =>
      cases h with
      | cons head tail =>
          rw [List.append_assoc]
          exact .cons head (ih tail)

/-! ## Reading items -/

section Read

variable {verbose : Bool} {outer : List OpenClass} {current : OpenClass} {s rest after : List Char}

theorem skipVerbose_false (s : List Char) : skipVerbose false s = s := by
  cases s with
  | nil => rw [skipVerbose]
  | cons c rest => rw [skipVerbose, if_neg Bool.false_ne_true]

/-- A verbose pattern passes over blanks and comments only. -/
theorem skipVerbose_cons {first : Char} (hblank : Text.isWhiteSpace first = false)
    (hcomment : first ≠ '#') (tail : List Char) :
    skipVerbose verbose (first :: tail) = first :: tail := by
  rw [skipVerbose]
  cases verbose with
  | false => rfl
  | true => rw [if_pos rfl, if_neg (Bool.eq_false_iff.mp hblank), if_neg hcomment]

theorem readSign_eq_readRange {first : Char} {tail : List Char} (h : first ∉ classMarks)
    (hskip : skipVerbose verbose (first :: tail) = first :: tail) :
    readSign verbose (first :: tail) = readRange (first :: tail) := by
  have hne {c : Char} (hc : c ∈ classMarks) : first ≠ c := fun heq => h (heq ▸ hc)
  have hsingle : ¬ (first ∈ setOperators ∧ tail.head? = some first) := by
    rintro ⟨hmem, -⟩
    exact h (.tail _ (.tail _ (.tail _ hmem)))
  rw [readSign, hskip]
  split
  · next heq => exact nomatch heq
  · next heq => exact absurd (List.cons.inj heq).1 (hne (by decide))
  · next heq => exact absurd (List.cons.inj heq).1 (hne (by decide))
  · next heq =>
      obtain ⟨rfl, rfl⟩ := List.cons.inj heq
      exact if_neg hsingle

theorem CharText.readSign {c : Char} (h : CharText s c)
    (hskip : skipVerbose verbose (s ++ after) = s ++ after) :
    Pattern.readSign verbose (s ++ after) = readRange (s ++ after) := by
  obtain ⟨first, tail, rfl, hfirst⟩ := h.head
  exact readSign_eq_readRange hfirst hskip

theorem readClass_of_range {low high : Char}
    (h : readSign verbose s = some (.range low high, rest)) :
    readClass verbose outer current s =
      readClass verbose outer ⟨current.negated, .range low high :: current.items⟩ rest := by
  rw [readClass]
  split <;> simp_all

theorem readClass_nested {tail : List Char} (hname : tail.head? ≠ some ':') :
    readClass verbose outer current ('[' :: tail) =
      readClass verbose (current :: outer) ⟨(readCaret tail).1, []⟩ (readCaret tail).2 := by
  have hsign : readSign verbose ('[' :: tail) =
      some (.nested (readCaret tail).1, (readCaret tail).2) := by
    rw [readSign, skipVerbose_cons (by decide) (by decide)]
    exact if_neg hname
  rw [readClass]
  split <;> simp_all

/-- A sign that stands twice is an operator on sets, and nothing is read in its place. -/
theorem readSign_doubled {c : Char} (hc : c ∈ setOperators) (tail : List Char) :
    readSign verbose (c :: c :: tail) = none := by
  have hsolid : setOperators.all
      (fun d => !Text.isWhiteSpace d && d != '#' && d != '[' && d != ']') = true := by
    decide
  have hsign := List.all_eq_true.mp hsolid c hc
  simp only [Bool.and_eq_true, Bool.not_eq_true', bne_iff_ne] at hsign
  obtain ⟨⟨⟨hblank, hcomment⟩, hopen⟩, hclose⟩ := hsign
  rw [readSign, skipVerbose_cons hblank hcomment]
  split
  · next heq => exact nomatch heq
  · next heq => exact absurd (List.cons.inj heq).1 hclose
  · next heq => exact absurd (List.cons.inj heq).1 hopen
  · next heq =>
      obtain ⟨rfl, rfl⟩ := List.cons.inj heq
      exact if_pos ⟨hc, rfl⟩

theorem readSign_close (tail : List Char) :
    readSign verbose (']' :: tail) = some (.close, tail) := by
  rw [readSign, skipVerbose_cons (by decide) (by decide)]
  rfl

theorem readClass_close (hne : current.items ≠ []) (tail : List Char) :
    readClass verbose [] current (']' :: tail) = some (current, tail) := by
  have hsign : readSign verbose (']' :: tail) = some (.close, tail) := readSign_close tail
  rw [readClass]
  split <;> simp_all

theorem readClass_close_nested (hne : current.items ≠ []) (parent : OpenClass)
    (tail : List Char) :
    readClass verbose (parent :: outer) current (']' :: tail) =
      readClass verbose outer
        ⟨parent.negated, .nested current.negated current.items.reverse :: parent.items⟩ tail := by
  have hsign : readSign verbose (']' :: tail) = some (.close, tail) := readSign_close tail
  rw [readClass]
  split <;> simp_all

/-- One character, unless a dash makes it the start of a range. -/
theorem CharText.readClass {c : Char} (h : CharText s c)
    (hskip : skipVerbose verbose (s ++ after) = s ++ after) (hdash : after.head? ≠ some '-') :
    Pattern.readClass verbose outer current (s ++ after) =
      Pattern.readClass verbose outer ⟨current.negated, .range c c :: current.items⟩ after := by
  have hupper : readUpper after = none := by
    rw [readUpper]
    rintro d rest rfl
    exact hdash rfl
  refine readClass_of_range ?_
  rw [h.readSign hskip, readRange, h.read]
  simp [hupper]

theorem readClass_range {s' : List Char} {low high : Char} (hlow : CharText s low)
    (hhigh : CharText s' high) (hle : ¬ high < low)
    (hskip : skipVerbose verbose (s ++ ('-' :: s' ++ after)) = s ++ ('-' :: s' ++ after)) :
    readClass verbose outer current (s ++ '-' :: s' ++ after) =
      readClass verbose outer ⟨current.negated, .range low high :: current.items⟩ after := by
  have hupper : readUpper ('-' :: (s' ++ after)) = some (s' ++ after) := by
    obtain ⟨first, tail, rfl, hfirst⟩ := hhigh.head
    have hplain : ¬ (first = ']' ∨ first = '-') := by
      rintro (rfl | rfl)
      · exact hfirst (by decide)
      · exact hfirst (by decide)
    rw [List.cons_append, readUpper, if_neg hplain]
  refine readClass_of_range ?_
  rw [List.append_assoc, hlow.readSign hskip, List.cons_append, readRange, hlow.read]
  simp [hupper, hhigh.read, hle]

end Read

theorem readCaret_append {negated : Bool} {s : List Char} (h : s.head? ≠ some '^') :
    readCaret ((if negated then ['^'] else []) ++ s) = (negated, s) := by
  cases negated with
  | true => rfl
  | false =>
      show readCaret s = (false, s)
      rw [readCaret]
      rintro tail rfl
      exact h rfl

/-- The text is read as these items of a class, whatever stands behind it but a dash. -/
structure Reads (verbose : Bool) (s : List Char) (items : List ClassItem) : Prop where
  dash : s.head? ≠ some '-'
  caret : s.head? ≠ some '^'
  read : ∀ outer current after, after.head? ≠ some '-' →
    readClass verbose outer current (s ++ after) =
      readClass verbose outer ⟨current.negated, items.reverse ++ current.items⟩ after

namespace Reads

variable {verbose : Bool} {s s' : List Char} {items items' : List ClassItem}

theorem nil : Reads verbose [] [] := ⟨nofun, nofun, fun _ _ _ _ => rfl⟩

theorem append (h : Reads verbose s items) (h' : Reads verbose s' items') :
    Reads verbose (s ++ s') (items ++ items') := by
  have hhead (c : Char) (hs : s.head? ≠ some c) (hs' : s'.head? ≠ some c) :
      (s ++ s').head? ≠ some c := by
    cases s with
    | nil => exact hs'
    | cons first tail => exact hs
  refine ⟨hhead _ h.dash h'.dash, hhead _ h.caret h'.caret, fun outer current after hafter => ?_⟩
  have hbehind : (s' ++ after).head? ≠ some '-' := by
    cases s' with
    | nil => exact hafter
    | cons first tail => exact h'.dash
  rw [List.append_assoc, h.read outer current _ hbehind, h'.read outer _ _ hafter,
    List.reverse_append, List.append_assoc]

theorem head?_append_ne_caret (h : Reads verbose s items) {c : Char} (hc : c ≠ '^')
    {after : List Char} : (s ++ c :: after).head? ≠ some '^' := by
  cases s with
  | nil => simpa using hc
  | cons first tail => exact h.caret

/-- A negated class inside a class is read with the class around it on the stack, to which
it is closed. -/
theorem nested (h : Reads verbose s items) (hne : items ≠ []) :
    Reads verbose ('[' :: '^' :: (s ++ [']'])) [.nested true items] := by
  refine ⟨by simp, by simp, fun outer current after hafter => ?_⟩
  have hclose : (']' :: after).head? ≠ some '-' := by simp
  have htext : '[' :: '^' :: (s ++ [']']) ++ after = '[' :: '^' :: (s ++ ']' :: after) := by
    simp
  have hitems : items.reverse ++ [] ≠ [] := by simpa using hne
  rw [htext, readClass_nested (by simp)]
  show readClass verbose (current :: outer) ⟨true, []⟩ (s ++ ']' :: after) = _
  rw [h.read _ _ _ hclose, readClass_close_nested hitems, List.append_nil, List.reverse_reverse]
  rfl

/-- A class is read from its opening bracket to its closing one, and no further. -/
theorem step (h : Reads verbose s items) (hne : items ≠ []) (negated : Bool) (r : Reading)
    (hverbose : r.verbose = verbose) (after : List Char) :
    r.step '[' ((if negated then ['^'] else []) ++ s ++ [']'] ++ after) =
      some (r.push (.bracket negated items) after) := by
  have hitems : items.reverse ++ [] ≠ [] := by simpa using hne
  have hread : Pattern.readClass verbose [] ⟨negated, []⟩ (s ++ ']' :: after) =
      some (⟨negated, items.reverse⟩, after) := by
    rw [h.read _ _ _ (by simp), readClass_close hitems, List.append_nil]
  have hhead : (s ++ ']' :: after).head? ≠ some '^' := h.head?_append_ne_caret (by decide)
  simp only [Reading.step, hverbose, List.append_assoc, List.singleton_append]
  rw [readCaret_append hhead]
  simp [hread]

/-- An operator on sets is noticed behind whatever was read before it: there is no such
class. -/
theorem step_doubled (h : Reads verbose s items) (negated : Bool) (r : Reading)
    (hverbose : r.verbose = verbose) {c : Char} (hc : c ∈ setOperators) (hdash : c ≠ '-')
    (after : List Char) :
    r.step '[' ((if negated then ['^'] else []) ++ s ++ c :: c :: after) = none := by
  have hread : Pattern.readClass verbose [] ⟨negated, []⟩ (s ++ c :: c :: after) = none := by
    rw [h.read _ _ _ (by simpa using hdash), readClass]
    split <;> simp_all [readSign_doubled hc after]
  have hcaret : c ≠ '^' := by
    rintro rfl
    exact absurd hc (by decide)
  have hhead : (s ++ c :: c :: after).head? ≠ some '^' := h.head?_append_ne_caret hcaret
  simp only [Reading.step, hverbose, List.append_assoc]
  rw [readCaret_append hhead]
  simp [hread]

end Reads

section Chars

variable {verbose : Bool} {s : List Char}

theorem CharText.head?_ne {c d : Char} (h : CharText s c) (hd : d ∈ classMarks) :
    s.head? ≠ some d := by
  obtain ⟨first, tail, rfl, hfirst⟩ := h.head
  intro heq
  exact hfirst (Option.some.inj heq ▸ hd)

theorem CharText.reads {c : Char} (h : CharText s c)
    (hskip : ∀ after, skipVerbose verbose (s ++ after) = s ++ after) :
    Reads verbose s [.range c c] :=
  ⟨h.head?_ne (by decide), h.head?_ne (by decide), fun _ _ after hafter =>
    h.readClass (hskip after) hafter⟩

theorem CharText.reads_range {s' : List Char} {low high : Char} (hlow : CharText s low)
    (hhigh : CharText s' high) (hle : ¬ high < low)
    (hskip : ∀ after, skipVerbose verbose (s ++ after) = s ++ after) :
    Reads verbose (s ++ '-' :: s') [.range low high] := by
  have hhead (d : Char) (hd : d ∈ classMarks) : (s ++ '-' :: s').head? ≠ some d := by
    obtain ⟨first, tail, rfl, -⟩ := hlow.head
    exact hlow.head?_ne hd
  exact ⟨hhead _ (by decide), hhead _ (by decide), fun _ _ after _ =>
    readClass_range hlow hhigh hle (hskip _)⟩

end Chars

mutual

/-- Where no blanks are passed over, an item is read as itself. -/
theorem ItemText.reads {s : List Char} {item : ClassItem} (h : ItemText s item) :
    Reads false s [item] := by
  match item, h with
  | _, .single h => exact h.reads fun _ => skipVerbose_false _
  | _, .range hlow hhigh hle => exact hlow.reads_range hhigh hle fun _ => skipVerbose_false _
  | .nested true items, .negated h hne => exact h.reads.nested hne

theorem ItemsText.reads {s : List Char} {items : List ClassItem} (h : ItemsText s items) :
    Reads false s items := by
  match items, h with
  | [], .nil => exact .nil
  | item :: items, .cons head tail => exact head.reads.append tail.reads

end

/-! ## What a class holds -/

mutual

def ClassItem.Holds : ClassItem → Nat → Prop
  | .range low high, code => low.toNat ≤ code ∧ code ≤ high.toNat
  | .nested negated items, code =>
    if negated then ¬ ClassItem.AnyHolds items code else ClassItem.AnyHolds items code

def ClassItem.AnyHolds : List ClassItem → Nat → Prop
  | [], _ => False
  | item :: items, code => ClassItem.Holds item code ∨ ClassItem.AnyHolds items code

end

theorem ClassItem.anyHolds_append (first second : List ClassItem) (code : Nat) :
    AnyHolds (first ++ second) code ↔ AnyHolds first code ∨ AnyHolds second code := by
  induction first with
  | nil => simp [AnyHolds]
  | cons item first ih => simp [AnyHolds, ih, or_assoc]

/-! ### Under a mode -/

/-- The codes with `p`, and if case is ignored those that differ from one by case. -/
def Mode.Closes (mode : Mode) (p : Nat → Prop) (code : Nat) : Prop :=
  p code ∨ mode.ignoreCase = true ∧ ∃ other ∈ Text.caseClass code, p other

mutual

/-- What an item holds where case may be ignored. A class is closed before its complement is
taken. -/
def ClassItem.HoldsIn (mode : Mode) : ClassItem → Nat → Prop
  | .range low high, code => low.toNat ≤ code ∧ code ≤ high.toNat
  | .nested negated items, code =>
    if negated then ¬ mode.Closes (fun other => ClassItem.AnyHoldsIn mode items other) code
    else mode.Closes (fun other => ClassItem.AnyHoldsIn mode items other) code

def ClassItem.AnyHoldsIn (mode : Mode) : List ClassItem → Nat → Prop
  | [], _ => False
  | item :: items, code =>
    ClassItem.HoldsIn mode item code ∨ ClassItem.AnyHoldsIn mode items code

end

theorem Mode.fold_contains {mode : Mode} (hunicode : mode.unicode = true) (set : CharSet)
    (code : Nat) : (mode.fold set).contains code = true ↔
      mode.Closes (fun other => set.contains other = true) code := by
  cases hcase : mode.ignoreCase with
  | false => simp [Mode.fold, Mode.Closes, hcase]
  | true => simp [Mode.fold, Mode.Closes, hcase, hunicode, CharSet.contains]

theorem Mode.Closes.congr {mode : Mode} {p q : Nat → Prop} (h : ∀ code, p code ↔ q code)
    (code : Nat) : mode.Closes p code ↔ mode.Closes q code := by
  simp only [Mode.Closes, h]

mutual

/-- A class is the set of what its items hold, closed under case, or its complement. -/
theorem Mode.bracket_contains {mode : Mode} (hunicode : mode.unicode = true) (negated : Bool)
    (items : List ClassItem) :
    ∃ set, mode.bracket negated items = some set ∧ ∀ code, set.contains code = true ↔
      (ClassItem.nested negated items).HoldsIn mode code := by
  obtain ⟨set, hset, hcontains⟩ := Mode.items_contains hunicode items
  have hclosed (code : Nat) : (mode.fold set).contains code = true ↔
      mode.Closes (fun other => ClassItem.AnyHoldsIn mode items other) code :=
    (Mode.fold_contains hunicode set code).trans (Mode.Closes.congr hcontains code)
  cases negated with
  | false => exact ⟨mode.fold set, by simp [Mode.bracket, hset], hclosed⟩
  | true =>
      refine ⟨.complement (mode.fold set), by simp [Mode.bracket, hset, hunicode], fun code => ?_⟩
      rw [CharSet.contains, Bool.not_eq_true', ← Bool.not_eq_true, hclosed]
      exact Iff.rfl

theorem Mode.items_contains {mode : Mode} (hunicode : mode.unicode = true)
    (items : List ClassItem) : ∃ set, mode.items items = some set ∧
      ∀ code, set.contains code = true ↔ ClassItem.AnyHoldsIn mode items code := by
  match items with
  | [] => exact ⟨.empty, by rw [Mode.items], by simp [CharSet.contains, ClassItem.AnyHoldsIn]⟩
  | item :: items =>
      obtain ⟨first, hfirst, hholds⟩ := Mode.item_contains hunicode item
      obtain ⟨others, hothers, hany⟩ := Mode.items_contains hunicode items
      refine ⟨.union first others, by simp [Mode.items, hfirst, hothers], fun code => ?_⟩
      simp [CharSet.contains, ClassItem.AnyHoldsIn, hholds, hany]

theorem Mode.item_contains {mode : Mode} (hunicode : mode.unicode = true) (item : ClassItem) :
    ∃ set, mode.item item = some set ∧
      ∀ code, set.contains code = true ↔ item.HoldsIn mode code := by
  match item with
  | .range low high =>
      refine ⟨.range low.toNat high.toNat, by simp [Mode.item, hunicode], fun code => ?_⟩
      simp [CharSet.contains, ClassItem.HoldsIn]
  | .nested negated items =>
      obtain ⟨set, hset, hcontains⟩ := Mode.bracket_contains hunicode negated items
      exact ⟨set, by simp [Mode.item, hset], hcontains⟩

end

mutual

/-- Where case matters, nothing is added. -/
theorem ClassItem.holdsIn_iff {mode : Mode} (hcase : mode.ignoreCase = false) (item : ClassItem)
    (code : Nat) : item.HoldsIn mode code ↔ item.Holds code := by
  match item with
  | .range low high => exact Iff.rfl
  | .nested negated items =>
      have hclosed : mode.Closes (fun other => ClassItem.AnyHoldsIn mode items other) code ↔
          ClassItem.AnyHolds items code := by
        simp [Mode.Closes, hcase, ClassItem.anyHoldsIn_iff hcase items code]
      cases negated with
      | false => exact hclosed
      | true => exact not_congr hclosed

theorem ClassItem.anyHoldsIn_iff {mode : Mode} (hcase : mode.ignoreCase = false)
    (items : List ClassItem) (code : Nat) :
    ClassItem.AnyHoldsIn mode items code ↔ ClassItem.AnyHolds items code := by
  match items with
  | [] => exact Iff.rfl
  | item :: items =>
      exact or_congr (ClassItem.holdsIn_iff hcase item code)
        (ClassItem.anyHoldsIn_iff hcase items code)

end

/-! ## What a text denotes -/

/-- The engine reads the text, which is one class, as the set of the codes with `p`:
before any text, and wherever in a pattern it stands that is not verbose. -/
def Denotes (mode : Mode) (text : List Char) (p : Nat → Prop) : Prop :=
  ∃ inner negated items set, text = '[' :: inner ∧
    (∀ (r : Reading) (after : List Char), r.verbose = false →
      r.step '[' (inner ++ after) = some (r.push (.bracket negated items) after)) ∧
    mode.bracket negated items = some set ∧
    ∀ code < 0x110000, set.contains code = true ↔ p code

theorem Denotes.congr {mode : Mode} {text : List Char} {p q : Nat → Prop}
    (h : Denotes mode text p) (hpq : ∀ code < 0x110000, p code ↔ q code) :
    Denotes mode text q := by
  obtain ⟨inner, negated, items, set, htext, hstep, hset, hcontains⟩ := h
  exact ⟨inner, negated, items, set, htext, hstep, hset,
    fun code hcode => (hcontains code hcode).trans (hpq code hcode)⟩

/-- A text denotes one set only. -/
theorem Denotes.unique {mode : Mode} {text : List Char} {p q : Nat → Prop}
    (hp : Denotes mode text p) (hq : Denotes mode text q) :
    ∀ code < 0x110000, p code ↔ q code := by
  obtain ⟨inner, negated, items, set, rfl, hstep, hset, hcontains⟩ := hp
  obtain ⟨inner', negated', items', set', htext, hstep', hset', hcontains'⟩ := hq
  obtain rfl := (List.cons.inj htext).2
  have hread := (hstep ⟨[], [], [], false, [], []⟩ [] rfl).symm.trans (hstep' _ [] rfl)
  obtain ⟨rfl, rfl⟩ : negated = negated' ∧ items = items' := by
    simpa [Reading.push] using hread
  obtain rfl := Option.some.inj (hset.symm.trans hset')
  exact fun code hcode => (hcontains code hcode).symm.trans (hcontains' code hcode)

/-- A text in which an operator on sets stands behind items denotes nothing. -/
theorem Reads.not_denotes {mode : Mode} {negated : Bool} {s after : List Char}
    {items : List ClassItem} (h : Reads false s items) {c : Char} (hc : c ∈ setOperators)
    (hdash : c ≠ '-') (p : Nat → Prop) :
    ¬ Denotes mode (Regexp.bracketText negated (s ++ c :: c :: after)) p := by
  rintro ⟨inner, negated', items', set, htext, hstep, -, -⟩
  have hread := hstep ⟨[], [], [], false, [], []⟩ [] rfl
  have hnone := h.step_doubled negated ⟨[], [], [], false, [], []⟩ rfl hc hdash (after ++ [']'])
  rw [← (List.cons.inj htext).2] at hread
  simp only [List.append_assoc, List.cons_append, List.append_nil] at hread hnone
  rw [hread] at hnone
  exact nomatch hnone

/-- A class whose body is read as these items denotes what they hold, or everything else. -/
theorem Reads.denotes {mode : Mode} (hunicode : mode.unicode = true) (negated : Bool)
    {body : List Char} {items : List ClassItem} (h : Reads false body items) (hne : items ≠ []) :
    Denotes mode (Regexp.bracketText negated body) ((ClassItem.nested negated items).HoldsIn mode) := by
  obtain ⟨set, hset, hcontains⟩ := Mode.bracket_contains hunicode negated items
  exact ⟨_, negated, items, set, rfl, fun r after hverbose => h.step hne negated r hverbose after,
    hset, fun code _ => hcontains code⟩

theorem denotes_bracketText {mode : Mode} (hcase : mode.ignoreCase = false)
    (hunicode : mode.unicode = true) (negated : Bool) {body : List Char}
    {items : List ClassItem} (h : ItemsText body items) (hne : items ≠ []) :
    Denotes mode (Regexp.bracketText negated body) fun code =>
      if negated then ¬ ClassItem.AnyHolds items code else ClassItem.AnyHolds items code :=
  (h.reads.denotes hunicode negated hne).congr fun code _ =>
    ClassItem.holdsIn_iff hcase (.nested negated items) code

end ParseView.Pattern
