import Mathlib.Data.List.TakeWhile
import ParseView.Aria.Numeric
import ParseView.Proofs.NumeralValue

/-!
# Which texts are numbers

`NumericLiteral` is the grammar of the texts that scripts convert to a number: nothing at all,
digits of another radix behind its prefix, and infinity or a decimal literal behind a sign. It
does not say in which order a reader looks for these, and no two of its rules overlap.

A text is numeric exactly if it is such a literal with blanks around it. The blanks are those
of Unicode. Scripts have blanks of their own, which differ from these in two characters only: a
next line is none of theirs, a byte order mark is. So a text with the one is taken for a number
where scripts take it for none, a text with the other is refused where they take it, and apart
from these texts the two agree.
-/

namespace ParseView.Aria

open Text (IsDigit)
open ParseView.Tree (RadixPrefix)

/-! ## The grammar of numbers -/

def Digits (radix : Nat) (s : List Char) : Prop := ∀ c ∈ s, ∃ d, IsDigit radix c d

inductive SignText : List Char → Prop where
  | none : SignText []
  | plus : SignText ['+']
  | minus : SignText ['-']

inductive ExponentText : List Char → Prop where
  | none : ExponentText []
  | some {mark : Char} {sign digits : List Char} (hmark : mark = 'e' ∨ mark = 'E')
      (hsign : SignText sign) (hne : digits ≠ []) (h : Digits 10 digits) :
      ExponentText (mark :: (sign ++ digits))

/-- Digits, perhaps with a point before, among or behind them, and perhaps an exponent. -/
inductive DecimalText : List Char → Prop where
  | whole {digits exponent : List Char} (hne : digits ≠ []) (h : Digits 10 digits)
      (hexponent : ExponentText exponent) : DecimalText (digits ++ exponent)
  | point {before behind exponent : List Char} (hne : before ≠ [] ∨ behind ≠ [])
      (h : Digits 10 before) (h' : Digits 10 behind) (hexponent : ExponentText exponent) :
      DecimalText (before ++ '.' :: (behind ++ exponent))

/-- What scripts convert to a number, blanks aside. -/
inductive NumericLiteral : List Char → Prop where
  | empty : NumericLiteral []
  | radix {lead digits : List Char} {radix : Nat} (hlead : RadixPrefix lead radix)
      (hne : lead ≠ []) (hdigits : digits ≠ []) (h : Digits radix digits) :
      NumericLiteral (lead ++ digits)
  | infinity {sign : List Char} (hsign : SignText sign) : NumericLiteral (sign ++ infinityText)
  | decimal {sign s : List Char} (hsign : SignText sign) (h : DecimalText s) :
      NumericLiteral (sign ++ s)

/-- White space and line terminators of scripts. -/
def IsScriptBlank (c : Char) : Prop :=
  (0x09 ≤ c.toNat ∧ c.toNat ≤ 0x0D) ∨ (0x2000 ≤ c.toNat ∧ c.toNat ≤ 0x200A) ∨
    c.toNat ∈ [0x20, 0xA0, 0x1680, 0x2028, 0x2029, 0x202F, 0x205F, 0x3000, 0xFEFF]

/-- A literal with blanks around it. -/
def NumericWithin (blank : Char → Prop) (s : List Char) : Prop :=
  ∃ before literal behind, s = before ++ literal ++ behind ∧ (∀ c ∈ before, blank c) ∧
    (∀ c ∈ behind, blank c) ∧ NumericLiteral literal

/-! ## Digits -/

variable {s : List Char}

theorem digits_iff {radix : Nat} (hradix : radix ≤ 16) :
    Digits radix s ↔ s.all (fun c => (Text.digitValue? radix c).isSome) = true := by
  rw [List.all_eq_true]
  refine forall_congr' fun c => forall_congr' fun _ => ?_
  rw [Option.isSome_iff_exists]
  exact exists_congr fun d => (Text.digitValue?_eq_some_iff hradix).symm

theorem isDigits_iff {radix : Nat} (hradix : radix ≤ 16) :
    isDigits radix s = true ↔ s ≠ [] ∧ Digits radix s := by
  rw [isDigits, digits_iff hradix]
  cases s <;> simp

theorem isAsciiDigit_iff {c : Char} : Text.isAsciiDigit c = true ↔ ∃ d, IsDigit 10 c d := by
  constructor
  · intro h
    have hle : c.toNat ≤ '9'.toNat := by
      simp only [Text.isAsciiDigit, Bool.and_eq_true, decide_eq_true_eq] at h
      exact h.2
    have hascii : ∀ code ≤ '9'.toNat, Text.isAsciiDigit (Char.ofNat code) = true →
        (Text.digitValue? 10 (Char.ofNat code)).isSome = true := by
      decide
    have hvalue := hascii c.toNat hle
    rw [Char.ofNat_toNat] at hvalue
    obtain ⟨d, hd⟩ := Option.isSome_iff_exists.mp (hvalue h)
    exact ⟨d, Text.isDigit_of_digitValue? hd⟩
  · intro h
    obtain ⟨d, hd⟩ := h
    have hdigit : ∀ d < 10, Text.isAsciiDigit (Nat.digitChar d) = true ∧
        Text.isAsciiDigit (Nat.digitChar d).toUpper = true := by
      decide
    obtain ⟨hlt, rfl | rfl⟩ := hd
    · exact (hdigit d hlt).1
    · exact (hdigit d hlt).2

theorem digits_ten_iff : Digits 10 s ↔ ∀ c ∈ s, Text.isAsciiDigit c = true :=
  forall_congr' fun _ => forall_congr' fun _ => isAsciiDigit_iff.symm

/-- Digits end where something else begins. -/
theorem span_digits {digits rest : List Char} (h : Digits 10 digits)
    (hrest : ∀ c ∈ rest.head?, Text.isAsciiDigit c = false) :
    (digits ++ rest).takeWhile Text.isAsciiDigit = digits ∧
      (digits ++ rest).dropWhile Text.isAsciiDigit = rest := by
  have hall := digits_ten_iff.mp h
  rw [List.takeWhile_append_of_pos hall, List.dropWhile_append_of_pos hall]
  cases rest with
  | nil => simp
  | cons c rest => simp [hrest c rfl]

/-! ## Decimal literals -/

/-- The signs that digits may stand between. -/
theorem SignText.dropSign {sign rest : List Char} (h : SignText sign)
    (hrest : ∀ c ∈ rest.head?, c ≠ '+' ∧ c ≠ '-') : Aria.dropSign (sign ++ rest) = rest := by
  cases h with
  | none =>
      cases rest with
      | nil => rfl
      | cons c rest =>
          obtain ⟨hplus, hminus⟩ := hrest c rfl
          rw [List.nil_append, Aria.dropSign.eq_def]
          split
          · next heq => exact absurd (List.cons.inj heq).1 hplus
          · next heq => exact absurd (List.cons.inj heq).1 hminus
          · rfl
  | plus => rfl
  | minus => rfl

theorem exists_signText (s : List Char) : ∃ sign, SignText sign ∧ s = sign ++ dropSign s := by
  rw [dropSign.eq_def]
  split
  · exact ⟨['+'], .plus, rfl⟩
  · exact ⟨['-'], .minus, rfl⟩
  · exact ⟨[], .none, rfl⟩

theorem isExponent_iff : isExponent s = true ↔ ExponentText s := by
  constructor
  · intro h
    cases s with
    | nil => exact .none
    | cons mark rest =>
        rw [isExponent, Bool.and_eq_true, isDigits_iff (by decide)] at h
        obtain ⟨hmark, hne, hdigits⟩ := h
        obtain ⟨sign, hsign, hrest⟩ := exists_signText rest
        rw [hrest]
        exact .some (by simpa using hmark) hsign hne hdigits
  · intro h
    cases h with
    | none => rfl
    | some hmark hsign hne h =>
        have hhead := digits_ten_iff.mp h
        rw [isExponent, hsign.dropSign, (isDigits_iff (by decide)).mpr ⟨hne, h⟩]
        · simpa using hmark
        · intro c hc
          have hdigit := hhead c (List.mem_of_mem_head? hc)
          constructor <;> rintro rfl <;> exact absurd hdigit (by decide)

theorem ExponentText.head {exponent : List Char} (h : ExponentText exponent) :
    ∀ c ∈ exponent.head?, c = 'e' ∨ c = 'E' := by
  intro c hc
  cases h with
  | none => exact nomatch hc
  | some hmark => exact Option.some.inj hc ▸ hmark

theorem ExponentText.head_not_digit {exponent : List Char} (h : ExponentText exponent) :
    ∀ c ∈ exponent.head?, Text.isAsciiDigit c = false := by
  intro c hc
  rcases h.head c hc with rfl | rfl <;> decide

theorem isEmpty_and_isEmpty_iff {before behind : List Char} :
    (!(before.isEmpty && behind.isEmpty)) = true ↔ before ≠ [] ∨ behind ≠ [] := by
  rw [Bool.not_eq_true', Bool.and_eq_false_iff, List.isEmpty_eq_false_iff,
    List.isEmpty_eq_false_iff]

theorem isDecimal_iff : isDecimal s = true ↔ DecimalText s := by
  have hwhole := List.takeWhile_append_dropWhile (p := Text.isAsciiDigit) (l := s)
  have hdigits (t : List Char) : Digits 10 (t.takeWhile Text.isAsciiDigit) :=
    digits_ten_iff.mpr (List.all_eq_true.mp List.all_takeWhile)
  constructor
  · intro h
    rw [isDecimal] at h
    rw [← hwhole]
    split at h
    · next rest hdrop =>
        have hrest := List.takeWhile_append_dropWhile (p := Text.isAsciiDigit) (l := rest)
        rw [Bool.and_eq_true, isExponent_iff] at h
        rw [hdrop, ← hrest]
        exact .point (isEmpty_and_isEmpty_iff.mp h.1) (hdigits s) (hdigits rest) h.2
    · rw [Bool.and_eq_true, isExponent_iff] at h
      exact .whole (by simpa using h.1) (hdigits s) h.2
  · intro h
    cases h with
    | @whole digits exponent hne h hexponent =>
        obtain ⟨htake, hdrop⟩ := span_digits h hexponent.head_not_digit
        have hpoint (rest : List Char) : exponent ≠ '.' :: rest := by
          rintro rfl
          rcases hexponent.head '.' rfl with heq | heq <;> exact absurd heq (by decide)
        rw [isDecimal, htake, hdrop]
        split
        · next rest => exact absurd rfl (hpoint rest)
        · simp [hne, isExponent_iff.mpr hexponent]
    | @point before behind exponent hne h h' hexponent =>
        have hpoint : ∀ c ∈ ('.' :: (behind ++ exponent)).head?, Text.isAsciiDigit c = false :=
          fun c hc => Option.some.inj hc ▸ rfl
        obtain ⟨htake, hdrop⟩ := span_digits h hpoint
        obtain ⟨htake', hdrop'⟩ := span_digits h' hexponent.head_not_digit
        rw [isDecimal, htake, hdrop]
        show (!(before.isEmpty && ((behind ++ exponent).takeWhile Text.isAsciiDigit).isEmpty) &&
          isExponent ((behind ++ exponent).dropWhile Text.isAsciiDigit)) = true
        rw [htake', hdrop', isExponent_iff.mpr hexponent, Bool.and_true]
        exact isEmpty_and_isEmpty_iff.mpr hne

/-! ## Literals -/

theorem isFloatChar_of_digits (h : Digits 10 s) : ∀ c ∈ s, isFloatChar c = true := by
  intro c hc
  rw [isFloatChar, digits_ten_iff.mp h c hc, Bool.true_or]

theorem SignText.isFloatChar {sign : List Char} (h : SignText sign) :
    ∀ c ∈ sign, Aria.isFloatChar c = true := by
  cases h with
  | none => exact nofun
  | plus => exact List.forall_mem_singleton.mpr (by decide)
  | minus => exact List.forall_mem_singleton.mpr (by decide)

theorem ExponentText.isFloatChar {exponent : List Char} (h : ExponentText exponent) :
    ∀ c ∈ exponent, Aria.isFloatChar c = true := by
  cases h with
  | none => exact nofun
  | some hmark hsign _ h =>
      refine List.forall_mem_cons.mpr ⟨?_, List.forall_mem_append.mpr
        ⟨hsign.isFloatChar, isFloatChar_of_digits h⟩⟩
      rcases hmark with rfl | rfl <;> decide

theorem DecimalText.isFloatChar (h : DecimalText s) : ∀ c ∈ s, Aria.isFloatChar c = true := by
  cases h with
  | whole _ h hexponent =>
      exact List.forall_mem_append.mpr ⟨isFloatChar_of_digits h, hexponent.isFloatChar⟩
  | point _ h h' hexponent =>
      exact List.forall_mem_append.mpr ⟨isFloatChar_of_digits h,
        List.forall_mem_cons.mpr ⟨by decide,
          List.forall_mem_append.mpr ⟨isFloatChar_of_digits h', hexponent.isFloatChar⟩⟩⟩

/-- A digit or the point begins a decimal literal, no sign. -/
theorem DecimalText.head (h : DecimalText s) : ∀ c ∈ s.head?, c ≠ '+' ∧ c ≠ '-' := by
  have hdigit {c : Char} {digits : List Char} (h : Digits 10 (c :: digits)) :
      c ≠ '+' ∧ c ≠ '-' := by
    have hc := digits_ten_iff.mp h c (List.mem_cons_self ..)
    constructor <;> rintro rfl <;> exact nomatch hc
  intro c hc
  cases h with
  | @whole digits _ hne h =>
      cases digits with
      | nil => exact absurd rfl hne
      | cons first digits =>
          obtain rfl := Option.some.inj hc
          exact hdigit h
  | @point before _ _ _ h =>
      cases before with
      | nil =>
          obtain rfl := Option.some.inj hc
          decide
      | cons first before =>
          obtain rfl := Option.some.inj hc
          exact hdigit h

/-- In ASCII, and neither a blank nor a control character. -/
def IsVisible (c : Char) : Prop := 0x20 < c.toNat ∧ c.toNat < 0x7F

instance (c : Char) : Decidable (IsVisible c) := inferInstanceAs (Decidable (_ ∧ _))

theorem visible_of_isFloatChar {c : Char} (h : isFloatChar c = true) : IsVisible c := by
  simp only [isFloatChar, Text.isAsciiDigit, Bool.or_eq_true, Bool.and_eq_true,
    decide_eq_true_eq, List.contains_iff_mem, List.mem_cons, List.not_mem_nil, or_false] at h
  rcases h with hdigit | rfl | rfl | rfl | rfl | rfl
  · have hlow : '0'.toNat ≤ c.toNat := hdigit.1
    have hhigh : c.toNat ≤ '9'.toNat := hdigit.2
    simp only [Char.reduceToNat] at hlow hhigh
    exact ⟨by omega, by omega⟩
  all_goals decide

/-- The words have a letter that no decimal literal has. -/
theorem not_mem_floatWords (h : s.all isFloatChar = true) : s.map Char.toLower ∉ floatWords := by
  have hletter : ∀ word ∈ floatWords, 'n' ∈ word := by decide
  have hascii : ∀ code < 128, isFloatChar (Char.ofNat code) = true →
      (Char.ofNat code).toLower ≠ 'n' := by
    decide
  intro hword
  obtain ⟨c, hc, hlower⟩ := List.mem_map.mp (hletter _ hword)
  have hfloat := List.all_eq_true.mp h c hc
  have hnot := hascii c.toNat (Nat.lt_trans (visible_of_isFloatChar hfloat).2 (by decide))
  rw [Char.ofNat_toNat] at hnot
  exact hnot hfloat hlower

/-- Signed decimal literals, and nothing else that is read as a floating-point number. -/
theorem isFloat_iff : ((dropSign s).all isFloatChar && isFloatText s) = true ↔
    DecimalText (dropSign s) := by
  rw [Bool.and_eq_true, isFloatText, Bool.or_eq_true, List.contains_iff_mem, isDecimal_iff]
  constructor
  · intro h
    exact h.2.resolve_right (not_mem_floatWords h.1)
  · intro h
    exact ⟨List.all_eq_true.mpr h.isFloatChar, .inl h⟩

/-- Behind a prefix there are digits of its radix only. -/
theorem numericLiteral_iff_isDigits {mark : Char} {radix : Nat}
    (hlead : RadixPrefix ['0', mark] radix) (hmark : isFloatChar mark = false)
    (digits : List Char) :
    NumericLiteral ('0' :: mark :: digits) ↔ isDigits radix digits = true := by
  rw [isDigits_iff hlead.radix_le]
  constructor
  · intro h
    generalize hs : '0' :: mark :: digits = s at h
    cases h with
    | empty => exact nomatch hs
    | @radix lead digits' radix' hlead' hne hdigits h =>
        obtain ⟨mark', rfl⟩ := hlead'.exists_mark hne
        obtain ⟨rfl, rfl⟩ : mark = mark' ∧ digits = digits' := by simpa using hs
        obtain rfl := hlead.unique hlead'
        exact ⟨hdigits, h⟩
    | infinity hsign => cases hsign <;> exact nomatch hs
    | @decimal sign text hsign h =>
        have hmem : mark ∈ sign ++ text := by
          rw [← hs]
          exact .tail _ (.head _)
        have hfloat := List.forall_mem_append.mpr ⟨hsign.isFloatChar, h.isFloatChar⟩ mark hmem
        exact absurd (hmark.symm.trans hfloat) Bool.false_ne_true
  · intro h
    exact .radix hlead (List.cons_ne_nil _ _) h.1 h.2

theorem isNumericText_iff : isNumericText s = true ↔ NumericLiteral s := by
  have hdigits {mark : Char} {radix : Nat} (hlead : RadixPrefix ['0', mark] radix)
      (hmark : isFloatChar mark = false) (digits : List Char) :=
    (numericLiteral_iff_isDigits hlead hmark digits).symm
  rw [isNumericText.eq_def]
  split
  · exact iff_of_true rfl .empty
  · exact hdigits (.hex (.inl rfl)) (by decide) _
  · exact hdigits (.hex (.inr rfl)) (by decide) _
  · exact hdigits (.octal (.inl rfl)) (by decide) _
  · exact hdigits (.octal (.inr rfl)) (by decide) _
  · exact hdigits (.binary (.inl rfl)) (by decide) _
  · exact hdigits (.binary (.inr rfl)) (by decide) _
  · next hempty hx hX ho hO hb hB =>
      rw [Bool.or_eq_true, beq_iff_eq, isFloat_iff]
      obtain ⟨sign, hsign, hs⟩ := exists_signText s
      constructor
      · intro h
        rw [hs]
        rcases h with h | h
        · rw [h]
          exact .infinity hsign
        · exact .decimal hsign h
      · intro h
        cases h with
        | empty => exact absurd rfl hempty
        | radix hlead hne =>
            -- the reader has looked for every prefix before
            cases hlead with
            | decimal => exact absurd rfl hne
            | hex hmark =>
                rcases hmark with rfl | rfl
                · exact absurd rfl (hx _)
                · exact absurd rfl (hX _)
            | octal hmark =>
                rcases hmark with rfl | rfl
                · exact absurd rfl (ho _)
                · exact absurd rfl (hO _)
            | binary hmark =>
                rcases hmark with rfl | rfl
                · exact absurd rfl (hb _)
                · exact absurd rfl (hB _)
        | infinity hsign =>
            exact .inl (hsign.dropSign fun c hc => Option.some.inj hc ▸ by decide)
        | decimal hsign h =>
            rw [hsign.dropSign h.head]
            exact .inr h

/-! ## Blanks around a literal -/

theorem Digits.visible {radix : Nat} {digits : List Char} (h : Digits radix digits)
    (hradix : radix ≤ 16) : ∀ c ∈ digits, IsVisible c := by
  have hdigit : ∀ d < 16,
      IsVisible (Nat.digitChar d) ∧ IsVisible (Nat.digitChar d).toUpper := by
    decide
  intro c hc
  obtain ⟨d, hlt, heq⟩ := h c hc
  have hvisible := hdigit d (Nat.lt_of_lt_of_le hlt hradix)
  rcases heq with rfl | rfl
  · exact hvisible.1
  · exact hvisible.2

theorem visible_of_all (h : s.all (fun c => decide (IsVisible c)) = true) :
    ∀ c ∈ s, IsVisible c :=
  fun c hc => of_decide_eq_true (List.all_eq_true.mp h c hc)

theorem visible_of_radixPrefix {lead : List Char} {radix : Nat} (h : RadixPrefix lead radix) :
    ∀ c ∈ lead, IsVisible c := by
  refine visible_of_all ?_
  cases h with
  | decimal => rfl
  | hex hmark => rcases hmark with rfl | rfl <;> rfl
  | octal hmark => rcases hmark with rfl | rfl <;> rfl
  | binary hmark => rcases hmark with rfl | rfl <;> rfl

/-- The characters of literals are visible, so that blanks end where a literal begins. -/
theorem NumericLiteral.visible (h : NumericLiteral s) : ∀ c ∈ s, IsVisible c := by
  cases h with
  | empty => exact nofun
  | radix hlead _ _ h =>
      exact List.forall_mem_append.mpr ⟨visible_of_radixPrefix hlead, h.visible hlead.radix_le⟩
  | infinity hsign =>
      exact List.forall_mem_append.mpr
        ⟨fun c hc => visible_of_isFloatChar (hsign.isFloatChar c hc), visible_of_all rfl⟩
  | decimal hsign h =>
      exact List.forall_mem_append.mpr
        ⟨fun c hc => visible_of_isFloatChar (hsign.isFloatChar c hc),
          fun c hc => visible_of_isFloatChar (h.isFloatChar c hc)⟩

theorem exists_trimBy (p : Char → Bool) (s : List Char) : ∃ before behind,
    s = before ++ Text.trimBy p s ++ behind ∧ (∀ c ∈ before, p c = true) ∧
      ∀ c ∈ behind, p c = true := by
  have hfront := List.takeWhile_append_dropWhile (p := p) (l := s)
  have hback := List.takeWhile_append_dropWhile (p := p) (l := (s.dropWhile p).reverse)
  refine ⟨s.takeWhile p, ((s.dropWhile p).reverse.takeWhile p).reverse, ?_,
    List.all_eq_true.mp List.all_takeWhile, fun c hc => ?_⟩
  · rw [List.append_assoc, Text.trimBy, ← List.reverse_append, hback, List.reverse_reverse, hfront]
  · exact List.all_eq_true.mp List.all_takeWhile c (List.mem_reverse.mp hc)

theorem dropWhile_around {p : Char → Bool} {before text behind : List Char}
    (hbefore : ∀ c ∈ before, p c = true) (htext : ∀ c ∈ text, p c = false)
    (hbehind : ∀ c ∈ behind, p c = true) : (before ++ text ++ behind).dropWhile p =
      if text = [] then [] else text ++ behind := by
  rw [List.append_assoc, List.dropWhile_append_of_pos hbefore]
  cases text with
  | nil => rw [if_pos rfl, List.nil_append, List.dropWhile_eq_nil_iff.mpr hbehind]
  | cons c text =>
      rw [if_neg (List.cons_ne_nil _ _), List.cons_append,
        List.dropWhile_cons_of_neg (by simp [htext c (List.mem_cons_self ..)])]

theorem trimBy_around {p : Char → Bool} {before text behind : List Char}
    (hbefore : ∀ c ∈ before, p c = true) (htext : ∀ c ∈ text, p c = false)
    (hbehind : ∀ c ∈ behind, p c = true) : Text.trimBy p (before ++ text ++ behind) = text := by
  rw [Text.trimBy, dropWhile_around hbefore htext hbehind]
  split
  · next hnil => rw [hnil]; rfl
  · next hne =>
      have hreverse : (behind.reverse ++ text.reverse ++ []).dropWhile p =
          if text.reverse = [] then [] else text.reverse ++ [] :=
        dropWhile_around (by simpa using hbehind) (by simpa using htext) nofun
      rw [List.append_nil, if_neg (by simpa using hne), List.append_nil] at hreverse
      rw [List.reverse_append, hreverse, List.reverse_reverse]

theorem numericWithin_iff_trimBy {p : Char → Bool}
    (hvisible : ∀ c : Char, IsVisible c → p c = false) :
    NumericWithin (fun c => p c = true) s ↔ NumericLiteral (Text.trimBy p s) := by
  constructor
  · intro h
    obtain ⟨before, literal, behind, rfl, hbefore, hbehind, hliteral⟩ := h
    rw [trimBy_around hbefore (fun c hc => hvisible c (hliteral.visible c hc)) hbehind]
    exact hliteral
  · intro h
    obtain ⟨before, behind, hs, hbefore, hbehind⟩ := exists_trimBy p s
    exact ⟨before, _, behind, hs, hbefore, hbehind, h⟩

/-! ## The blanks of scripts and of Unicode -/

/-- They differ in a next line and a byte order mark. -/
theorem isWhiteSpace_iff {c : Char} :
    Text.isWhiteSpace c = true ↔ c = '\u0085' ∨ IsScriptBlank c ∧ c ≠ '\uFEFF' := by
  have hnext : c = '\u0085' ↔ c.toNat = 0x85 := Char.toNat_inj.symm
  have hmark : c = '\uFEFF' ↔ c.toNat = 0xFEFF := Char.toNat_inj.symm
  rw [Ne, hnext, hmark]
  simp only [Text.isWhiteSpace, IsScriptBlank, Bool.or_eq_true, Bool.and_eq_true,
    decide_eq_true_eq, beq_iff_eq, List.mem_cons, List.not_mem_nil, or_false]
  omega

theorem NumericWithin.mono {p q : Char → Prop} (h : NumericWithin p s)
    (hpq : ∀ c ∈ s, p c → q c) : NumericWithin q s := by
  obtain ⟨before, literal, behind, rfl, hbefore, hbehind, hliteral⟩ := h
  exact ⟨before, literal, behind, rfl, fun c hc => hpq c (by simp [hc]) (hbefore c hc),
    fun c hc => hpq c (by simp [hc]) (hbehind c hc), hliteral⟩

/-- What is neither a blank nor visible is in no numeric text. -/
theorem NumericWithin.notMem {p : Char → Prop} (h : NumericWithin p s) {c : Char} (hp : ¬ p c)
    (hvisible : 0x7F ≤ c.toNat) : c ∉ s := by
  obtain ⟨before, literal, behind, rfl, hbefore, hbehind, hliteral⟩ := h
  intro hc
  simp only [List.mem_append] at hc
  rcases hc with (hc | hc) | hc
  · exact hp (hbefore c hc)
  · exact absurd (hliteral.visible c hc).2 (Nat.not_lt.mpr hvisible)
  · exact hp (hbehind c hc)

theorem isNumeric_iff_numericWithin :
    isNumeric s = true ↔ NumericWithin (fun c => Text.isWhiteSpace c = true) s := by
  rw [isNumeric, isNumericText_iff]
  refine (numericWithin_iff_trimBy fun c hvisible => ?_).symm
  rw [IsVisible] at hvisible
  simp only [Text.isWhiteSpace, Bool.or_eq_false_iff, Bool.and_eq_false_iff,
    decide_eq_false_iff_not, beq_eq_false_iff_ne]
  omega

/-- A text is numeric if it is a literal with blanks of Unicode around it. It is so exactly if it
is one with the blanks of scripts around it, unless it is numeric with a next line in it, or
would be numeric with a byte order mark in it. -/
theorem isNumeric_iff (s : List Char) :
    (isNumeric s = true ↔ NumericWithin (fun c => Text.isWhiteSpace c = true) s) ∧
      ((isNumeric s = true ↔ NumericWithin IsScriptBlank s) ↔
        (isNumeric s = true → '\u0085' ∉ s) ∧ (NumericWithin IsScriptBlank s → '\uFEFF' ∉ s)) := by
  refine ⟨isNumeric_iff_numericWithin, ?_⟩
  have hnext (h : NumericWithin IsScriptBlank s) : '\u0085' ∉ s :=
    h.notMem (by simp [IsScriptBlank]) (by decide)
  have hmark (h : isNumeric s = true) : '\uFEFF' ∉ s :=
    (isNumeric_iff_numericWithin.mp h).notMem (by decide) (by decide)
  constructor
  · intro hagree
    exact ⟨fun h => hnext (hagree.mp h), fun h => hmark (hagree.mpr h)⟩
  · intro hapart
    constructor
    · intro h
      refine (isNumeric_iff_numericWithin.mp h).mono fun c hc hblank => ?_
      rcases isWhiteSpace_iff.mp hblank with rfl | hscript
      · exact absurd hc (hapart.1 h)
      · exact hscript.1
    · intro h
      refine isNumeric_iff_numericWithin.mpr (h.mono fun c hc hblank => ?_)
      refine isWhiteSpace_iff.mpr (.inr ⟨hblank, ?_⟩)
      rintro rfl
      exact hapart.2 h hc

/-- Both happen: a digit behind a byte order mark is no number, one behind a next line is. -/
theorem isNumeric_next_line_and_byte_order_mark :
    (isNumeric ['\uFEFF', '1'] = false ∧ NumericWithin IsScriptBlank ['\uFEFF', '1']) ∧
      isNumeric ['\u0085', '1'] = true ∧ ¬ NumericWithin IsScriptBlank ['\u0085', '1'] := by
  have hdigits : Digits 10 ['1'] := digits_ten_iff.mpr (List.all_eq_true.mp (by decide))
  have hdecimal : DecimalText (['1'] ++ []) := .whole (by decide) hdigits .none
  have hone : NumericLiteral ([] ++ ['1']) := .decimal .none hdecimal
  refine ⟨⟨by decide, ['\uFEFF'], ['1'], [], rfl, ?_, nofun, hone⟩, by decide, fun h => ?_⟩
  · exact List.forall_mem_singleton.mpr (by simp [IsScriptBlank])
  · exact h.notMem (by simp [IsScriptBlank]) (by decide : 0x7F ≤ '\u0085'.toNat) (.head _)

end ParseView.Aria
