import Mathlib.Data.List.Basic
import ParseView.Proofs.MapReading
import ParseView.Proofs.VlqWords

/-!
# Numbers written one behind the other

No separator stands between the four numbers of a segment. What keeps them apart is the
sixth bit of each digit: it says that the number goes on, and the last digit of a number is
the only one without it (`IsNumber`). So a reader that knows nothing but the alphabet finds
the numbers again, and with them every list of numbers is known from its text. That the
text of one number is never the beginning of another's is the case of a list against a
single number.

The bound on the numbers is that of the words they are written from. Below it thirteen
rounds are enough for each (`write?_in_bounds`), since the sign makes it one of sixty-three
bits; reading back needs no bound.
-/

namespace ParseView.SourceMap.Vlq

/-! ## The alphabet -/

/-- The characters that digits are written with, by their numbers. -/
def alphabet : List Char :=
  "ABCDEFGHIJKLMNOPQRSTUVWXYZabcdefghijklmnopqrstuvwxyz0123456789+/".toList

theorem alphabet_digit : ∀ n < 64, alphabet[n]? = some (Base64.digit n) := by decide

/-- A character stands for a digit whose sixth bit says whether the number goes on. -/
def StandsFor (goesOn : Bool) (c : Char) : Prop :=
  ∃ n : Nat, alphabet[n]? = some c ∧ n.testBit 5 = goesOn

theorem StandsFor.mem {goesOn : Bool} {c : Char} (h : StandsFor goesOn c) : c ∈ alphabet := by
  obtain ⟨n, hn, -⟩ := h
  exact List.mem_of_getElem? hn

/-- The text of one number: up to its last digit it goes on. -/
def IsNumber (text : List Char) : Prop :=
  ∃ lead last, text = lead ++ [last] ∧ (∀ c ∈ lead, StandsFor true c) ∧ StandsFor false last

theorem IsNumber.subset {text : List Char} (h : IsNumber text) {c : Char} (hc : c ∈ text) :
    c ∈ alphabet := by
  obtain ⟨lead, last, rfl, hlead, hlast⟩ := h
  rcases List.mem_append.mp hc with hc | hc
  · exact (hlead c hc).mem
  · rw [List.mem_singleton.mp hc]
    exact hlast.mem

theorem testBit_of_lt : ∀ n < 64, n.testBit 5 = decide (32 ≤ n) := by decide

theorem isNumber_digits (n : Nat) : IsNumber ((digits n).map Base64.digit) := by
  fun_induction digits n with
  | case1 n hn =>
      refine ⟨[], Base64.digit n, rfl, ?_, n, alphabet_digit n (by omega), ?_⟩
      · exact fun _ hc => absurd hc List.not_mem_nil
      · rw [testBit_of_lt n (by omega)]
        exact decide_eq_false (by omega)
  | case2 n hn ih =>
      obtain ⟨lead, last, htext, hlead, hlast⟩ := ih
      have hfirst : StandsFor true (Base64.digit (n % 32 + 32)) := by
        refine ⟨n % 32 + 32, alphabet_digit _ (by omega), ?_⟩
        rw [testBit_of_lt _ (by omega)]
        exact decide_eq_true (by omega)
      refine ⟨Base64.digit (n % 32 + 32) :: lead, last, ?_, ?_, hlast⟩
      · rw [List.map_cons, htext, List.cons_append]
      · exact List.forall_mem_cons.mpr ⟨hfirst, hlead⟩

/-! ## Lists of numbers -/

theorem readNumbers?_flatMap (values : List Int) :
    readNumbers? 0 1 (values.flatMap encode) = some values := by
  induction values with
  | nil => rfl
  | cons value rest ih => rw [List.flatMap_cons, readNumbers?_encode, ih, Option.map_some]

theorem flatMap_encode_injective {values others : List Int}
    (h : values.flatMap encode = others.flatMap encode) : values = others := by
  have hread := readNumbers?_flatMap values
  rw [h, readNumbers?_flatMap] at hread
  exact (Option.some.inj hread).symm

/-- What begins with the text of a number and is one is the text of this number. -/
theorem eq_of_encode_prefix {value other : Int} (h : encode value <+: encode other) :
    value = other := by
  obtain ⟨rest, hrest⟩ := h
  have hread := readNumbers?_flatMap [other]
  rw [List.flatMap_singleton, ← hrest, readNumbers?_encode, Option.map_eq_some_iff] at hread
  obtain ⟨numbers, -, hcons⟩ := hread
  exact (List.cons.inj hcons).1

/-! ## Writing in words -/

/-- A number is written behind a text. -/
def writeBehind? (rounds : Nat) (text : List Char) (value : Int64) : Option (List Char) :=
  (write? rounds value).map (text ++ ·)

theorem write?_in_bounds {value : Int} (h : value.natAbs < 2 ^ 62) {rounds : Nat}
    (hrounds : 13 ≤ rounds) : write? rounds (Int64.ofInt value) = some (encode value) := by
  have hword : (Int64.ofInt value).toInt = value :=
    Int64.toInt_ofInt_of_le (by omega) (by omega)
  have hwritten : write? rounds (Int64.ofInt value) = some (encode (Int64.ofInt value).toInt) :=
    write?_of_lt (k := 12) (by rwa [hword]) (by rw [hword]; omega) hrounds
  rwa [hword] at hwritten

theorem foldlM_writeBehind? {values : List Int} (h : ∀ value ∈ values, value.natAbs < 2 ^ 62)
    {rounds : Nat} (hrounds : 13 ≤ rounds) (text : List Char) :
    (values.map Int64.ofInt).foldlM (writeBehind? rounds) text =
      some (text ++ values.flatMap encode) := by
  induction values generalizing text with
  | nil => simp
  | cons value rest ih =>
      obtain ⟨hvalue, hrest⟩ := List.forall_mem_cons.mp h
      rw [List.map_cons, List.foldlM_cons, writeBehind?, write?_in_bounds hvalue hrounds,
        List.flatMap_cons, ← List.append_assoc]
      exact ih hrest (text ++ encode value)

/-- Numbers below the bound are written in words, each in thirteen rounds or less, and come
apart again: each is a text of digits of which all but the last go on, what stands in a row
is read as the numbers that were written and is the text of no others, and the text of none
begins that of another. -/
theorem numbers_come_apart {values : List Int} (h : ∀ value ∈ values, value.natAbs < 2 ^ 62) :
    (∀ rounds, 13 ≤ rounds →
      (values.map Int64.ofInt).foldlM (writeBehind? rounds) [] =
        some (values.flatMap encode)) ∧
    (∀ value ∈ values, IsNumber (encode value) ∧
      ∀ c ∈ encode value, c ∈ alphabet ∧ c ≠ ',' ∧ c ≠ ';') ∧
    readNumbers? 0 1 (values.flatMap encode) = some values ∧
    (∀ others, others.flatMap encode = values.flatMap encode → others = values) ∧
    (∀ value ∈ values, ∀ other, encode value <+: encode other → value = other) := by
  refine ⟨?_, ?_, readNumbers?_flatMap values, ?_, ?_⟩
  · intro rounds hrounds
    exact foldlM_writeBehind? h hrounds []
  · intro value _
    have hnumber : IsNumber (encode value) := isNumber_digits (zigzag value)
    refine ⟨hnumber, fun c hc => ⟨hnumber.subset hc, ?_⟩⟩
    exact ne_separator_of_mem_encode hc
  · intro others hsame
    exact flatMap_encode_injective hsame
  · intro value _ other hprefix
    exact eq_of_encode_prefix hprefix

/-- Around one digit, around two, and at the bound itself. -/
def boundaryNumbers : List Int :=
  [0, -1, 15, -16, 511, -512, 2 ^ 62 - 1, -(2 ^ 62 - 1)]

theorem numbers_come_apart_at_bounds :
    (∀ value ∈ boundaryNumbers, value.natAbs < 2 ^ 62) ∧
    (boundaryNumbers.map Int64.ofInt).foldlM (writeBehind? 13) [] =
      some "ADehB+fhgB+///////////H////////////H".toList ∧
    readNumbers? 0 1 "ADehB+fhgB+///////////H////////////H".toList = some boundaryNumbers := by
  have hbounds : ∀ value ∈ boundaryNumbers, value.natAbs < 2 ^ 62 := by decide
  have htext : boundaryNumbers.flatMap encode =
      "ADehB+fhgB+///////////H////////////H".toList := by decide +kernel
  obtain ⟨hwritten, -, hread, -, -⟩ := numbers_come_apart hbounds
  rw [htext] at hwritten hread
  exact ⟨hbounds, hwritten 13 (Nat.le_refl 13), hread⟩

end ParseView.SourceMap.Vlq
