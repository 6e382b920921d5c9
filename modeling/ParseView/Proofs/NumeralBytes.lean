import Mathlib.Algebra.GroupWithZero.Nat
import Mathlib.Data.List.Forall2
import ParseView.Proofs.NumeralValue
import ParseView.Text.Bytes
import ParseView.Tree.Decode

/-!
# A numeral is cut by its bytes

The prefix of a numeral is found by its bytes: if the first two are text of their own they
may name a radix, and then what stands behind them is cut off as the digits. `readNumeral`
tells this cut by cut, with an outcome of its own for a cut inside of a character, and hands
the digits to a converter of which nothing is known but what it makes of plain digits. A
converter may take signs and separators as well, as `lenientValue?` does; they never get to
it.

`readNumeral_eq` says that this is the reading by characters, so that no numeral is torn.
What a numeral means is said by `Means` as a sum over its digits, and `numeral_means_iff`
joins the two: a numeral is read exactly where it means a number, as this number.
-/

namespace ParseView.Tree

open Text

/-! ## The sum over the digits -/

/-- Digits with their values, each of which counts as often as its place says; the last
digit has place zero. -/
def placeValue (radix : Nat) (values : List Nat) : Nat :=
  (values.reverse.mapIdx fun place value => value * radix ^ place).sum

theorem placeValue_cons (radix value : Nat) (values : List Nat) :
    placeValue radix (value :: values) =
      value * radix ^ values.length + placeValue radix values := by
  rw [placeValue, List.reverse_cons, List.mapIdx_concat, List.sum_append, List.sum_singleton,
    List.length_reverse, Nat.add_comm, placeValue]

theorem digitRun_iff {radix n : Nat} {digits : List Char} : DigitRun radix digits n ↔
    ∃ values, List.Forall₂ (IsDigit radix) digits values ∧ n = placeValue radix values := by
  induction digits generalizing n with
  | nil =>
      constructor
      · intro h
        cases h
        exact ⟨[], .nil, rfl⟩
      · rintro ⟨values, hvalues, rfl⟩
        cases hvalues
        exact .nil
  | cons c rest ih =>
      constructor
      · intro h
        cases h with
        | @cons _ d _ n head tail =>
            obtain ⟨values, hvalues, rfl⟩ := ih.mp tail
            refine ⟨d :: values, .cons head hvalues, ?_⟩
            rw [placeValue_cons, hvalues.length_eq]
      · rintro ⟨values, hvalues, rfl⟩
        cases hvalues with
        | @cons _ d _ values head tail =>
            rw [placeValue_cons, ← tail.length_eq]
            exact .cons head (ih.mpr ⟨values, tail, rfl⟩)

/-- A numeral and the number that it means: a prefix that names the radix, and behind it the
digits, at least one, that the number is the sum of. -/
def Means (numeral : List Char) (n : Nat) : Prop :=
  ∃ lead radix digits values, RadixPrefix lead radix ∧ numeral = lead ++ digits ∧
    digits ≠ [] ∧ List.Forall₂ (IsDigit radix) digits values ∧ n = placeValue radix values

theorem denotes_iff_means {numeral : List Char} {n : Nat} :
    Denotes numeral n ↔ Means numeral n := by
  constructor
  · rintro ⟨lead, radix, digits, hlead, hnumeral, hne, hrun⟩
    obtain ⟨values, hvalues, hn⟩ := digitRun_iff.mp hrun
    exact ⟨lead, radix, digits, values, hlead, hnumeral, hne, hvalues, hn⟩
  · rintro ⟨lead, radix, digits, values, hlead, hnumeral, hne, hvalues, hn⟩
    exact ⟨lead, radix, digits, hlead, hnumeral, hne, digitRun_iff.mpr ⟨values, hvalues, hn⟩⟩

/-! ## Reading cut by cut -/

/-- What comes of reading a numeral. -/
inductive NumeralOutcome where
  | number (n : Int)
  | refused
  /-- A cut inside of a character. -/
  | torn
deriving DecidableEq, Repr

/-- The outcome that a number, if there is one, is told by. -/
def NumeralOutcome.ofValue : Option Nat → NumeralOutcome
  | some n => .number n
  | none => .refused

/-- The radix that two bytes of text name. -/
def leadRadix? : List Char → Option Nat
  | ['0', 'x'] | ['0', 'X'] => some 16
  | ['0', 'o'] | ['0', 'O'] => some 8
  | ['0', 'b'] | ['0', 'B'] => some 2
  | _ => none

/-- Plain digits are handed on to be converted. -/
def convertDigits (convert : Nat → List Char → Option Int) (radix : Nat) (digits : List Char) :
    NumeralOutcome :=
  if !digits.isEmpty && digits.all (fun c => (digitValue? radix c).isSome) then
    match convert radix digits with
    | some n => .number n
    | none => .refused
  else .refused

/-- A prefix is looked for in the first two bytes, and then cut off. -/
def readNumeral (convert : Nat → List Char → Option Int) (numeral : List Char) :
    NumeralOutcome :=
  match (splitBytes? 2 numeral).bind (fun (lead, _) => leadRadix? lead) with
  | some radix =>
    match splitBytes? 2 numeral with
    | some (_, digits) => convertDigits convert radix digits
    | none => .torn
  | none => convertDigits convert 10 numeral

theorem splitNumeral_of_leadRadix {lead : List Char} {radix : Nat}
    (h : leadRadix? lead = some radix) (digits : List Char) :
    splitNumeral (lead ++ digits) = (radix, digits) := by
  rw [leadRadix?.eq_def] at h
  split at h
  case h_7 => exact nomatch h
  all_goals
    obtain rfl := Option.some.inj h
    rfl

theorem splitNumeral_of_noRadix {numeral : List Char}
    (h : (splitBytes? 2 numeral).bind (fun (lead, _) => leadRadix? lead) = none) :
    splitNumeral numeral = (10, numeral) := by
  rw [splitNumeral.eq_def]
  split
  case h_7 => rfl
  all_goals simp [splitBytes?, leadRadix?, Char.utf8Size] at h

/-- The cut by bytes is the cut by characters, and never inside of one. -/
theorem readNumeral_eq_convertDigits (convert : Nat → List Char → Option Int)
    (numeral : List Char) : readNumeral convert numeral =
      convertDigits convert (splitNumeral numeral).1 (splitNumeral numeral).2 := by
  rw [readNumeral]
  cases hradix : (splitBytes? 2 numeral).bind (fun (lead, _) => leadRadix? lead) with
  | none => rw [splitNumeral_of_noRadix hradix]
  | some radix =>
      obtain ⟨⟨lead, digits⟩, hsplit, hlead⟩ := Option.bind_eq_some_iff.mp hradix
      rw [hsplit, ← append_of_splitBytes hsplit, splitNumeral_of_leadRadix hlead]

/-! ## Converters -/

/-- The radixes that a numeral can have. -/
def radixes : List Nat := [2, 8, 10, 16]

theorem RadixPrefix.mem_radixes {lead : List Char} {radix : Nat} (h : RadixPrefix lead radix) :
    radix ∈ radixes := by
  cases h <;> decide

theorem le_of_mem_radixes {radix : Nat} (h : radix ∈ radixes) : radix ≤ 16 :=
  (by decide : ∀ r ∈ radixes, r ≤ 16) radix h

/-- What is known of a converter: digits, and nothing but digits, it takes for their sum. -/
def Positional (convert : Nat → List Char → Option Int) : Prop :=
  ∀ radix ∈ radixes, ∀ digits values, digits ≠ [] →
    List.Forall₂ (IsDigit radix) digits values →
      convert radix digits = some (placeValue radix values)

/-- The number of digits with separators between them. -/
def separatedValue? (radix : Nat) (digits : List Char) : Option Nat :=
  if digits = [] ∨ digits.head? = some '_' then none
  else digitsValue? radix 0 (digits.filter (· ≠ '_'))

/-- A converter that takes a sign and passes over separators. -/
def lenientValue? (radix : Nat) : List Char → Option Int
  | '-' :: digits => (separatedValue? radix digits).map fun n => -n
  | '+' :: digits => (separatedValue? radix digits).map fun n => n
  | digits => (separatedValue? radix digits).map fun n => n

theorem exists_values_iff {radix : Nat} (hr : radix ≤ 16) {digits : List Char} :
    digits.all (fun c => (digitValue? radix c).isSome) = true ↔
      ∃ values, List.Forall₂ (IsDigit radix) digits values := by
  induction digits with
  | nil => simp
  | cons c rest ih =>
      rw [List.all_cons, Bool.and_eq_true, ih, Option.isSome_iff_exists]
      constructor
      · rintro ⟨⟨d, hd⟩, values, hvalues⟩
        exact ⟨d :: values, .cons ((digitValue?_eq_some_iff hr).mp hd) hvalues⟩
      · rintro ⟨values, hvalues⟩
        cases hvalues with
        | @cons _ d _ values head tail =>
            exact ⟨⟨d, (digitValue?_eq_some_iff hr).mpr head⟩, values, tail⟩

theorem digitsValue?_of_values {radix : Nat} (hr : radix ≤ 16) {digits : List Char}
    {values : List Nat} (h : List.Forall₂ (IsDigit radix) digits values) :
    digitsValue? radix 0 digits = some (placeValue radix values) :=
  (digitsValue?_eq_some_iff hr).mpr ⟨_, digitRun_iff.mpr ⟨values, h, rfl⟩, by simp⟩

theorem positional_lenientValue? : Positional lenientValue? := by
  intro radix hradix digits values hne hvalues
  have hr := le_of_mem_radixes hradix
  have hall := (exists_values_iff hr).mpr ⟨values, hvalues⟩
  have hmarks : ∀ r ∈ radixes, ['-', '+', '_'].all (fun c => !(digitValue? r c).isSome) := by
    decide
  have hmark : ∀ c ∈ digits, c ∉ ['-', '+', '_'] := by
    intro c hc hmem
    have hnone := List.all_eq_true.mp (hmarks radix hradix) c hmem
    rw [List.all_eq_true.mp hall c hc] at hnone
    exact Bool.false_ne_true hnone
  have hfilter : digits.filter (· ≠ '_') = digits := by
    rw [List.filter_eq_self]
    intro c hc
    have hnot := hmark c hc
    simp only [List.mem_cons, List.not_mem_nil, or_false, not_or] at hnot
    exact decide_eq_true hnot.2.2
  have hvalue := digitsValue?_of_values hr hvalues
  obtain ⟨c, rest, rfl⟩ := List.exists_cons_of_ne_nil hne
  have hhead := hmark c List.mem_cons_self
  simp only [List.mem_cons, List.not_mem_nil, or_false, not_or] at hhead
  obtain ⟨hminus, hplus, hseparator⟩ := hhead
  have hseparated : separatedValue? radix (c :: rest) = some (placeValue radix values) := by
    rw [separatedValue?, if_neg (by simp [hseparator]), hfilter, hvalue]
  rw [lenientValue?, hseparated]
  · rfl
  · rintro digits ⟨⟩
    exact hminus rfl
  · rintro digits ⟨⟩
    exact hplus rfl

variable {convert : Nat → List Char → Option Int}

/-- A converter that gets plain digits only, and at least one, gives their sum. -/
theorem convertDigits_eq (hconvert : Positional convert) {radix : Nat}
    (hradix : radix ∈ radixes) (digits : List Char) :
    convertDigits convert radix digits =
      .ofValue (if digits = [] then none else digitsValue? radix 0 digits) := by
  have hr := le_of_mem_radixes hradix
  rw [convertDigits]
  split
  · next hplain =>
      simp only [Bool.and_eq_true, Bool.not_eq_true', List.isEmpty_eq_false_iff] at hplain
      obtain ⟨hne, hall⟩ := hplain
      obtain ⟨values, hvalues⟩ := (exists_values_iff hr).mp hall
      rw [hconvert radix hradix digits values hne hvalues, if_neg hne,
        digitsValue?_of_values hr hvalues]
      rfl
  · next hplain =>
      by_cases hne : digits = []
      · rw [if_pos hne]
        rfl
      · have hnone : digitsValue? radix 0 digits = none := by
          rw [Option.eq_none_iff_forall_ne_some]
          intro n hn
          obtain ⟨m, hrun, -⟩ := (digitsValue?_eq_some_iff hr).mp hn
          obtain ⟨values, hvalues, -⟩ := digitRun_iff.mp hrun
          have hall := (exists_values_iff hr).mpr ⟨values, hvalues⟩
          exact hplain (by simp [hne, hall])
        rw [if_neg hne, hnone]
        rfl

theorem numeralValue?_eq (numeral : List Char) : numeralValue? numeral =
    if (splitNumeral numeral).2 = [] then none
    else digitsValue? (splitNumeral numeral).1 0 (splitNumeral numeral).2 := by
  rw [numeralValue?]
  generalize splitNumeral numeral = parts
  obtain ⟨radix, digits⟩ := parts
  cases digits with
  | nil => rfl
  | cons c rest => rfl

/-- Whatever the converter makes of other texts, the numeral is read as it is by characters. -/
theorem readNumeral_eq (hconvert : Positional convert) (numeral : List Char) :
    readNumeral convert numeral = .ofValue (numeralValue? numeral) := by
  obtain ⟨lead, hlead, -⟩ := radixPrefix_of_splitNumeral
    (show splitNumeral numeral = ((splitNumeral numeral).1, (splitNumeral numeral).2) from rfl)
  rw [readNumeral_eq_convertDigits, convertDigits_eq hconvert hlead.mem_radixes, numeralValue?_eq]

/-- A numeral is read exactly if it means a number, and as this number. Everything else is
refused, wherever characters of several bytes stand in it, and the literal that it belongs
to with it. -/
theorem numeral_means_iff (hconvert : Positional convert) (numeral : String) :
    (∀ n : Int, readNumeral convert numeral.toList = .number n ↔
      ∃ m : Nat, Means numeral.toList m ∧ n = m) ∧
    ((¬ ∃ m, Means numeral.toList m) → readNumeral convert numeral.toList = .refused) ∧
    readNumeral convert numeral.toList ≠ .torn ∧
    ∀ regex, (∀ value, restoredValue (some numeral) regex = .ok value ↔
        ∃ m, Means numeral.toList m ∧ value = .bigint m) ∧
      ((¬ ∃ m, Means numeral.toList m) →
        restoredValue (some numeral) regex = .error (.notNumeral numeral)) := by
  have hmeans (m : Nat) : numeralValue? numeral.toList = some m ↔ Means numeral.toList m :=
    numeralValue?_eq_some_iff.trans denotes_iff_means
  simp only [readNumeral_eq hconvert, restoredValue, ← hmeans]
  cases numeralValue? numeral.toList with
  | none => simp [NumeralOutcome.ofValue]
  | some m => simp [NumeralOutcome.ofValue, eq_comm]

/-- A prefix before two digits that are letters, one of them in capitals. -/
theorem numeral_means_iff_of_letters :
    Positional lenientValue? ∧ readNumeral lenientValue? "0xfE".toList = .number 254 ∧
      restoredValue (some "0xfE") none = .ok (.bigint 254) := by
  obtain ⟨hread, -, -, hrestored⟩ := numeral_means_iff positional_lenientValue? "0xfE"
  have hmeans : Means "0xfE".toList 254 :=
    ⟨['0', 'x'], 16, ['f', 'E'], [15, 14], .hex (.inl rfl), rfl, by decide,
      .cons ⟨by decide, .inl rfl⟩ (.cons ⟨by decide, .inr rfl⟩ .nil), rfl⟩
  exact ⟨positional_lenientValue?, (hread 254).mpr ⟨254, hmeans, rfl⟩,
    ((hrestored none).1 _).mpr ⟨254, hmeans, rfl⟩⟩

/-- A character over the second byte, and a separator that the converter would take. -/
example : readNumeral lenientValue? "0é1".toList = .refused ∧
    lenientValue? 10 "1_0".toList = some 10 ∧
    readNumeral lenientValue? "1_0".toList = .refused := by
  decide

end ParseView.Tree
