import Mathlib.Algebra.Group.Nat.Defs
import ParseView.Tree.Numeral

/-!
# The number that a numeral denotes

A numeral is a prefix, which names the radix, and a run of digits, each of which counts
as often as the power of the radix that its place stands for. `Denotes` says this
without reading the numeral from the left; that the reader finds such a number exactly
where there is one is `numeralValue?_eq_some_iff`.
-/

namespace ParseView.Text

/-! ## Digits -/

/-- The digit `d` of a radix, whose letters may be small or capital. -/
def IsDigit (radix : Nat) (c : Char) (d : Nat) : Prop :=
  d < radix ∧ (c = Nat.digitChar d ∨ c = (Nat.digitChar d).toUpper)

/-- The number of a run of digits, the most significant first. -/
inductive DigitRun (radix : Nat) : List Char → Nat → Prop where
  | nil : DigitRun radix [] 0
  | cons {c : Char} {d : Nat} {rest : List Char} {n : Nat} (head : IsDigit radix c d)
      (tail : DigitRun radix rest n) :
      DigitRun radix (c :: rest) (d * radix ^ rest.length + n)

theorem eq_ofNat_of_le {c low : Char} (h : low ≤ c) :
    c = Char.ofNat (c.toNat - low.toNat + low.toNat) := by
  have hle : low.toNat ≤ c.toNat := h
  rw [Nat.sub_add_cancel hle, Char.ofNat_toNat]

theorem ofNat_eq_digitChar :
    (∀ d < 10, Char.ofNat (d + '0'.toNat) = Nat.digitChar d) ∧
      (∀ d < 6, Char.ofNat (d + 'a'.toNat) = Nat.digitChar (d + 10)) ∧
      ∀ d < 6, Char.ofNat (d + 'A'.toNat) = (Nat.digitChar (d + 10)).toUpper := by
  decide

theorem digitValue?_digitChar : ∀ radix ≤ 16, ∀ d < radix,
    digitValue? radix (Nat.digitChar d) = some d ∧
      digitValue? radix (Nat.digitChar d).toUpper = some d := by
  decide

theorem isDigit_of_digitValue? {radix : Nat} {c : Char} {d : Nat}
    (h : digitValue? radix c = some d) : IsDigit radix c d := by
  obtain ⟨hdecimal, hsmall, hcapital⟩ := ofNat_eq_digitChar
  simp only [digitValue?] at h
  split at h
  · next hc =>
      obtain ⟨hlt, heq⟩ := Option.ite_none_right_eq_some.mp h
      obtain rfl := Option.some.inj heq
      have hc : '0' ≤ c ∧ c ≤ '9' := by simpa [isAsciiDigit] using hc
      have hle : c.toNat ≤ '9'.toNat := hc.2
      refine ⟨hlt, .inl ?_⟩
      rw [← hdecimal _ (Nat.lt_succ_of_le (Nat.sub_le_sub_right hle _))]
      exact eq_ofNat_of_le hc.1
  split at h
  · next hc =>
      obtain ⟨hlt, heq⟩ := Option.ite_none_right_eq_some.mp h
      obtain rfl := Option.some.inj heq
      have hle : c.toNat ≤ 'f'.toNat := hc.2
      refine ⟨hlt, .inl ?_⟩
      rw [← hsmall _ (Nat.lt_succ_of_le (Nat.sub_le_sub_right hle _))]
      exact eq_ofNat_of_le hc.1
  split at h
  · next hc =>
      obtain ⟨hlt, heq⟩ := Option.ite_none_right_eq_some.mp h
      obtain rfl := Option.some.inj heq
      have hle : c.toNat ≤ 'F'.toNat := hc.2
      refine ⟨hlt, .inr ?_⟩
      rw [← hcapital _ (Nat.lt_succ_of_le (Nat.sub_le_sub_right hle _))]
      exact eq_ofNat_of_le hc.1
  · simp at h

theorem digitValue?_eq_some_iff {radix : Nat} (hr : radix ≤ 16) {c : Char} {d : Nat} :
    digitValue? radix c = some d ↔ IsDigit radix c d := by
  refine ⟨isDigit_of_digitValue?, ?_⟩
  rintro ⟨hd, rfl | rfl⟩
  · exact (digitValue?_digitChar radix hr d hd).1
  · exact (digitValue?_digitChar radix hr d hd).2

theorem isHexDigit_digitChar : ∀ d < 16, isHexDigit (Nat.digitChar d) = true ∧
    isHexDigit (Nat.digitChar d).toUpper = true := by
  decide

theorem digitValue?_of_isHexDigit_ascii : ∀ code < 128,
    isHexDigit (Char.ofNat code) = true → (digitValue? 16 (Char.ofNat code)).isSome = true := by
  decide

theorem isHexDigit_iff {c : Char} : isHexDigit c = true ↔ ∃ d, IsDigit 16 c d := by
  constructor
  · intro h
    have hle : c.toNat ≤ 'f'.toNat := by
      simp only [isHexDigit, isAsciiDigit, Bool.or_eq_true, Bool.and_eq_true,
        decide_eq_true_eq] at h
      rcases h with (h | h) | h
      · exact Nat.le_trans h.2 (by decide)
      · exact h.2
      · exact Nat.le_trans h.2 (by decide)
    have hascii :=
      digitValue?_of_isHexDigit_ascii c.toNat (Nat.lt_of_le_of_lt hle (by decide))
    rw [Char.ofNat_toNat] at hascii
    obtain ⟨d, hd⟩ := Option.isSome_iff_exists.mp (hascii h)
    exact ⟨d, isDigit_of_digitValue? hd⟩
  · rintro ⟨d, hlt, rfl | rfl⟩
    · exact (isHexDigit_digitChar d hlt).1
    · exact (isHexDigit_digitChar d hlt).2

theorem DigitRun.append_singleton {radix n d : Nat} {digits : List Char} {c : Char}
    (h : DigitRun radix digits n) (hc : IsDigit radix c d) :
    DigitRun radix (digits ++ [c]) (n * radix + d) := by
  induction h with
  | nil => simpa using DigitRun.cons hc .nil
  | @cons first e rest n head tail ih =>
      have hvalue : e * radix ^ (rest ++ [c]).length + (n * radix + d) =
          (e * radix ^ rest.length + n) * radix + d := by
        rw [List.length_append, List.length_singleton, Nat.pow_succ, Nat.add_mul, Nat.mul_assoc,
          Nat.add_assoc]
      rw [List.cons_append, ← hvalue]
      exact .cons head ih

theorem digitRun_toDigits {radix : Nat} (h : 1 < radix) (n : Nat) :
    DigitRun radix (Nat.toDigits radix n) n := by
  induction n using Nat.strongRecOn with
  | ind n ih =>
      rcases Nat.lt_or_ge n radix with hlt | hle
      · rw [Nat.toDigits_of_lt_base hlt]
        simpa using DigitRun.cons ⟨hlt, .inl rfl⟩ .nil
      · have hpos : 0 < n := by omega
        have hrest := ih (n / radix) (Nat.div_lt_self hpos h)
        have hlast : IsDigit radix (Nat.digitChar (n % radix)) (n % radix) :=
          ⟨Nat.mod_lt n (by omega), .inl rfl⟩
        rw [Nat.toDigits_of_base_le h hle]
        simpa [Nat.div_add_mod'] using hrest.append_singleton hlast

theorem IsDigit.toUpper {radix : Nat} (hr : radix ≤ 16) {c : Char} {d : Nat}
    (h : IsDigit radix c d) : IsDigit radix c.toUpper d := by
  have htwice : ∀ d < 16, (Nat.digitChar d).toUpper.toUpper = (Nat.digitChar d).toUpper := by
    decide
  obtain ⟨hlt, rfl | rfl⟩ := h
  · exact ⟨hlt, .inr rfl⟩
  · exact ⟨hlt, .inr (htwice d (Nat.lt_of_lt_of_le hlt hr))⟩

theorem DigitRun.map_toUpper {radix n : Nat} (hr : radix ≤ 16) {digits : List Char}
    (h : DigitRun radix digits n) : DigitRun radix (digits.map Char.toUpper) n := by
  induction h with
  | nil => exact .nil
  | @cons c d rest n head tail ih =>
      have hrun := DigitRun.cons (head.toUpper hr) ih
      rwa [List.length_map] at hrun

/-- Digits in braces end at the closing one. -/
theorem span_isHexDigit_brace {digits : List Char} (h : ∀ c ∈ digits, isHexDigit c = true)
    (rest : List Char) : (digits ++ '}' :: rest).takeWhile isHexDigit = digits ∧
      (digits ++ '}' :: rest).dropWhile isHexDigit = '}' :: rest := by
  have hbrace : isHexDigit '}' = false := by decide
  rw [List.takeWhile_append_of_pos h, List.dropWhile_append_of_pos h]
  simp [hbrace]

end ParseView.Text

namespace ParseView.Tree

open Text

/-! ## Runs of digits -/

/-- Reading on from a value moves it up by as many places as there are digits. -/
theorem digitsValue?_eq_some_iff {radix : Nat} (hr : radix ≤ 16) {digits : List Char}
    {value m : Nat} : digitsValue? radix value digits = some m ↔
      ∃ n, DigitRun radix digits n ∧ m = value * radix ^ digits.length + n := by
  induction digits generalizing value with
  | nil =>
      constructor
      · intro h
        obtain rfl := Option.some.inj h
        exact ⟨0, .nil, by simp⟩
      · rintro ⟨n, hn, rfl⟩
        cases hn
        simp [digitsValue?]
  | cons c rest ih =>
      have hshift (d n : Nat) : (value * radix + d) * radix ^ rest.length + n =
          value * radix ^ (rest.length + 1) + (d * radix ^ rest.length + n) := by
        rw [Nat.add_mul, Nat.mul_assoc, Nat.pow_succ', Nat.add_assoc]
      rw [digitsValue?]
      constructor
      · intro h
        obtain ⟨d, hd, h⟩ := Option.bind_eq_some_iff.mp h
        obtain ⟨n, hn, rfl⟩ := ih.mp h
        exact ⟨_, .cons ((digitValue?_eq_some_iff hr).mp hd) hn, hshift d n⟩
      · rintro ⟨_, hn, rfl⟩
        cases hn with
        | @cons _ d _ n head tail =>
            refine Option.bind_eq_some_iff.mpr ⟨d, (digitValue?_eq_some_iff hr).mpr head, ?_⟩
            exact ih.mpr ⟨n, tail, (hshift d n).symm⟩

/-! ## Numerals -/

/-- The prefix of a numeral and the radix it names. -/
inductive RadixPrefix : List Char → Nat → Prop where
  | decimal : RadixPrefix [] 10
  | hex {c : Char} (h : c = 'x' ∨ c = 'X') : RadixPrefix ['0', c] 16
  | octal {c : Char} (h : c = 'o' ∨ c = 'O') : RadixPrefix ['0', c] 8
  | binary {c : Char} (h : c = 'b' ∨ c = 'B') : RadixPrefix ['0', c] 2

theorem RadixPrefix.radix_le {lead : List Char} {radix : Nat} (h : RadixPrefix lead radix) :
    radix ≤ 16 := by
  cases h <;> decide

theorem RadixPrefix.exists_mark {lead : List Char} {radix : Nat} (h : RadixPrefix lead radix)
    (hne : lead ≠ []) : ∃ mark, lead = ['0', mark] := by
  cases h with
  | decimal => exact absurd rfl hne
  | _ => exact ⟨_, rfl⟩

/-- A prefix names one radix. -/
theorem RadixPrefix.unique {lead : List Char} {radix radix' : Nat} (h : RadixPrefix lead radix)
    (h' : RadixPrefix lead radix') : radix = radix' := by
  cases h <;> cases h' <;> grind

/-- A prefix and digits of its radix, at least one. -/
def Denotes (numeral : List Char) (n : Nat) : Prop :=
  ∃ lead radix digits, RadixPrefix lead radix ∧ numeral = lead ++ digits ∧ digits ≠ [] ∧
    DigitRun radix digits n

theorem radixPrefix_of_splitNumeral {numeral digits : List Char} {radix : Nat}
    (h : splitNumeral numeral = (radix, digits)) :
    ∃ lead, RadixPrefix lead radix ∧ numeral = lead ++ digits := by
  rw [splitNumeral.eq_def] at h
  split at h <;> obtain ⟨rfl, rfl⟩ := Prod.mk.inj h
  · exact ⟨_, .hex (.inl rfl), rfl⟩
  · exact ⟨_, .hex (.inr rfl), rfl⟩
  · exact ⟨_, .octal (.inl rfl), rfl⟩
  · exact ⟨_, .octal (.inr rfl), rfl⟩
  · exact ⟨_, .binary (.inl rfl), rfl⟩
  · exact ⟨_, .binary (.inr rfl), rfl⟩
  · exact ⟨[], .decimal, rfl⟩

/-- Decimal digits are no prefix: the letters of prefixes are not among them. -/
theorem splitNumeral_of_decimal {digits : List Char} {n : Nat} (h : DigitRun 10 digits n) :
    splitNumeral digits = (10, digits) := by
  have hletter (c first : Char) (rest : List Char) (n : Nat)
      (hrun : DigitRun 10 (first :: c :: rest) n) : digitValue? 10 c ≠ none := by
    obtain _ | ⟨-, _ | ⟨hc, -⟩⟩ := hrun
    rw [(digitValue?_eq_some_iff (by decide)).mpr hc]
    exact nofun
  rw [splitNumeral.eq_def]
  split
  case h_7 => rfl
  all_goals exact absurd rfl (hletter _ _ _ _ h)

theorem splitNumeral_append {lead digits : List Char} {radix n : Nat}
    (hlead : RadixPrefix lead radix) (hrun : DigitRun radix digits n) :
    splitNumeral (lead ++ digits) = (radix, digits) := by
  cases hlead with
  | decimal => exact splitNumeral_of_decimal hrun
  | hex h => rcases h with rfl | rfl <;> rfl
  | octal h => rcases h with rfl | rfl <;> rfl
  | binary h => rcases h with rfl | rfl <;> rfl

/-- The value of a numeral is the number that it denotes. -/
theorem numeralValue?_eq_some_iff {numeral : List Char} {n : Nat} :
    numeralValue? numeral = some n ↔ Denotes numeral n := by
  have hvalue (radix : Nat) (digits : List Char) (hne : digits ≠ [])
      (hsplit : splitNumeral numeral = (radix, digits)) :
      numeralValue? numeral = digitsValue? radix 0 digits := by
    rw [numeralValue?, hsplit]
    cases digits with
    | nil => exact absurd rfl hne
    | cons c rest => rfl
  constructor
  · intro h
    cases hsplit : splitNumeral numeral with
    | mk radix digits =>
    obtain ⟨lead, hlead, rfl⟩ := radixPrefix_of_splitNumeral hsplit
    have hne : digits ≠ [] := by
      rintro rfl
      rw [numeralValue?, hsplit] at h
      exact nomatch h
    rw [hvalue radix digits hne hsplit] at h
    obtain ⟨n', hrun, rfl⟩ := (digitsValue?_eq_some_iff hlead.radix_le).mp h
    exact ⟨lead, radix, digits, hlead, rfl, hne, by simpa using hrun⟩
  · rintro ⟨lead, radix, digits, hlead, rfl, hne, hrun⟩
    rw [hvalue radix digits hne (splitNumeral_append hlead hrun)]
    exact (digitsValue?_eq_some_iff hlead.radix_le).mpr ⟨n, hrun, by simp⟩

end ParseView.Tree
