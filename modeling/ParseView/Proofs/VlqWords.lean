import Mathlib.Algebra.Group.Int.Defs
import Mathlib.Algebra.Group.Nat.Defs
import ParseView.SourceMap.Vlq

/-!
# Numbers of variable length in machine words

A number is written from a word of 64 bits with a sign: the sign goes into the lowest bit
of its double, and then a loop takes five bits in each round and shifts them out. `write?`
does this with the operations on words. It has no answer where an exact result does not fit
into a word, where a digit is looked up outside of the alphabet, or where the loop has not
ended within the rounds that it was given.

Shifting keeps the sign, so that the loop never ends on what is below zero, and on all else
it does what `digits` does on naturals. The doubles of numbers below two to the sixty-second
stay clear of the sign. Hence `write?_eq`: within this range a number is written as `encode`
says, in any number of rounds that is not less than that of its digits, which for all words
is thirteen.
-/

namespace ParseView.SourceMap.Vlq

/-- A whole number in a word, if it fits. -/
def word? (n : Int) : Option Int64 :=
  if -2 ^ 63 ≤ n ∧ n < 2 ^ 63 then some (Int64.ofInt n) else none

/-- A character of the alphabet. -/
def digitAt? (index : Int64) : Option Char :=
  if 0 ≤ index ∧ index < 64 then some (Base64.digit index.toInt.toNat) else none

/-- The digit that is written of what is left of a number: its lowest five bits, and a bit
that says whether there are more. -/
def group (left : Int64) : Int64 :=
  if (0 : Int64) < left >>> 5 then left &&& 31 ||| 32 else left &&& 31

/-- The digits of what is left of a number, one in each round. -/
def writeGroups? : Nat → Int64 → Option (List Char)
  | 0, _ => none
  | rounds + 1, left => do
    let digit ← digitAt? (group left)
    if left >>> 5 = 0 then return [digit]
    else (writeGroups? rounds (left >>> 5)).map (digit :: ·)

/-- The double of a number, with the sign as its lowest bit. -/
def signed? (value : Int64) : Option Int64 :=
  if value < 0 then do
    let magnitude ← word? (-value.toInt)
    let doubled ← word? (2 * magnitude.toInt)
    return doubled ||| 1
  else word? (2 * value.toInt)

def write? (rounds : Nat) (value : Int64) : Option (List Char) := do
  let left ← signed? value
  writeGroups? rounds left

/-! ## Operations on words -/

theorem word?_eq {n : Int} (hlow : -2 ^ 63 ≤ n) (hhigh : n < 2 ^ 63) :
    ∃ w, word? n = some w ∧ w.toInt = n := by
  refine ⟨Int64.ofInt n, ?_, Int64.toInt_ofInt_of_le hlow hhigh⟩
  rw [word?, if_pos ⟨hlow, hhigh⟩]

theorem toInt_cases (w : Int64) : w.toInt = w.toBitVec.toNat ∨
    w.toInt = (w.toBitVec.toNat : Int) - 2 ^ 64 := by
  rw [← Int64.toInt_toBitVec, BitVec.toInt_eq_toNat_cond]
  split
  · left
    rfl
  · right
    omega

theorem toNat_toBitVec {w : Int64} (h : 0 ≤ w.toInt) : (w.toBitVec.toNat : Int) = w.toInt := by
  have hlt := w.toBitVec.isLt
  rcases toInt_cases w with hw | hw
  · exact hw.symm
  · omega

theorem toInt_of_toNat {w : Int64} {n : Nat} (h : w.toBitVec.toNat = n) (hn : n < 2 ^ 63) :
    w.toInt = n := by
  rw [← Int64.toInt_toBitVec, BitVec.toInt_eq_toNat_of_lt (by omega), h]

theorem toInt_shift (w : Int64) : (w >>> 5).toInt = w.toInt / 32 := by
  have hamount : (5 : Int64).toBitVec.smod 64 = 5#64 := by decide
  rw [← Int64.toInt_toBitVec, Int64.toBitVec_shiftRight, hamount, BitVec.sshiftRight',
    BitVec.toInt_sshiftRight, Int.shiftRight_eq_div_pow]
  rfl

theorem toNat_low (w : Int64) : (w &&& 31).toBitVec.toNat = w.toBitVec.toNat % 32 := by
  rw [Int64.toBitVec_and, BitVec.toNat_and]
  exact Nat.and_two_pow_sub_one_eq_mod _ 5

theorem toInt_low (w : Int64) : (w &&& 31).toInt = w.toInt % 32 := by
  rw [toInt_of_toNat (toNat_low w) (by omega)]
  rcases toInt_cases w with hw | hw <;> omega

theorem toInt_continued (w : Int64) : (w &&& 31 ||| 32).toInt = w.toInt % 32 + 32 := by
  have hor : (w &&& 31 ||| 32).toBitVec.toNat = w.toBitVec.toNat % 32 + 32 := by
    rw [Int64.toBitVec_or, BitVec.toNat_or, toNat_low, Nat.or_comm, Nat.add_comm]
    exact (Nat.two_pow_add_eq_or_of_lt (i := 5) (Nat.mod_lt _ (by decide)) 1).symm
  rw [toInt_of_toNat hor (by omega)]
  rcases toInt_cases w with hw | hw <;> omega

/-- The lowest bit of an even number is free. -/
theorem toInt_odd {w : Int64} {n : Nat} (h : w.toInt = 2 * n) :
    (w ||| 1).toInt = 2 * n + 1 := by
  have hlt := w.toInt_lt
  have hw : w.toBitVec.toNat = 2 * n := by
    have := toNat_toBitVec (w := w) (by omega)
    omega
  have hor : (w ||| 1).toBitVec.toNat = 2 * n + 1 := by
    rw [Int64.toBitVec_or, BitVec.toNat_or, hw]
    exact (Nat.two_pow_add_eq_or_of_lt (i := 1) (b := 1) (by decide) n).symm
  rw [toInt_of_toNat hor (by omega)]
  push_cast
  rfl

/-- Digits are never looked up outside of the alphabet. -/
theorem digitAt?_eq {index : Int64} {n : Nat} (h : index.toInt = n) (hn : n < 64) :
    digitAt? index = some (Base64.digit n) := by
  have hlow : 0 ≤ index := Int64.le_iff_toInt_le.mpr (by rw [h]; exact Int.natCast_nonneg n)
  have hhigh : index < 64 := Int64.lt_iff_toInt_lt.mpr (by rw [h]; exact Int.ofNat_lt.mpr hn)
  rw [digitAt?, if_pos ⟨hlow, hhigh⟩, h, Int.toNat_natCast]

/-! ## The loop -/

theorem shift_eq_zero_iff {left : Int64} : left >>> 5 = 0 ↔ left.toInt / 32 = 0 := by
  rw [← Int64.toInt_inj, toInt_shift]
  rfl

theorem shift_pos_iff {left : Int64} : (0 : Int64) < left >>> 5 ↔ 0 < left.toInt / 32 := by
  rw [Int64.lt_iff_toInt_lt, toInt_shift]
  rfl

theorem writeGroups?_last {left : Int64} (h : left >>> 5 = 0) (rounds : Nat) :
    writeGroups? (rounds + 1) left = (digitAt? (group left)).map ([·]) := by
  rw [writeGroups?]
  simp only [if_pos h]
  cases digitAt? (group left) <;> rfl

theorem writeGroups?_more {left : Int64} (h : left >>> 5 ≠ 0) (rounds : Nat) :
    writeGroups? (rounds + 1) left = (digitAt? (group left)).bind fun digit =>
      (writeGroups? rounds (left >>> 5)).map (digit :: ·) := by
  rw [writeGroups?]
  simp only [if_neg h]
  rfl

/-- Below zero the loop does not end. -/
theorem writeGroups?_of_neg {left : Int64} (h : left.toInt < 0) (rounds : Nat) :
    writeGroups? rounds left = none := by
  induction rounds generalizing left with
  | zero => rfl
  | succ rounds ih =>
      have hne : left >>> 5 ≠ 0 := by
        rw [Ne, shift_eq_zero_iff]
        omega
      have hbehind : (left >>> 5).toInt < 0 := by
        rw [toInt_shift]
        omega
      rw [writeGroups?_more hne, ih hbehind]
      cases digitAt? (group left) <;> rfl

/-- From zero on it gives the digits, if it has a round for each of them. -/
theorem writeGroups?_eq {left : Int64} {n rounds : Nat} (h : left.toInt = n)
    (hrounds : (digits n).length ≤ rounds) :
    writeGroups? rounds left = some ((digits n).map Base64.digit) := by
  induction rounds generalizing left n with
  | zero =>
      rw [digits] at hrounds
      split at hrounds <;> simp at hrounds
  | succ rounds ih =>
      by_cases hn : n < 32
      · have hlast : left >>> 5 = 0 := by
          rw [shift_eq_zero_iff]
          omega
        have hgroup : (group left).toInt = n := by
          rw [group, if_neg (by rw [shift_pos_iff]; omega), toInt_low]
          omega
        rw [writeGroups?_last hlast, digitAt?_eq hgroup (by omega), digits, dif_pos hn]
        rfl
      · have hmore : left >>> 5 ≠ 0 := by
          rw [Ne, shift_eq_zero_iff]
          omega
        have hgroup : (group left).toInt = (n % 32 + 32 : Nat) := by
          rw [group, if_pos (by rw [shift_pos_iff]; omega), toInt_continued]
          omega
        have hbehind : (left >>> 5).toInt = (n / 32 : Nat) := by
          rw [toInt_shift]
          omega
        have hdigits : digits n = (n % 32 + 32) :: digits (n / 32) := by
          rw [digits, dif_neg hn]
        rw [hdigits, List.length_cons] at hrounds
        rw [writeGroups?_more hmore, digitAt?_eq hgroup (by omega),
          ih hbehind (Nat.le_of_succ_le_succ hrounds), hdigits]
        rfl

/-- Each digit has five bits of the number. -/
theorem length_digits_le {n k : Nat} (h : n < 32 ^ (k + 1)) : (digits n).length ≤ k + 1 := by
  induction k generalizing n with
  | zero =>
      rw [digits, dif_pos (by omega)]
      exact Nat.le_refl 1
  | succ k ih =>
      rw [digits]
      split
      · exact Nat.le_add_left 1 (k + 1)
      · have hless : n / 32 < 32 ^ (k + 1) := by
          rw [Nat.pow_succ] at h
          exact (Nat.div_lt_iff_lt_mul (by decide)).mpr h
        exact Nat.succ_le_succ (ih hless)

/-- Thirteen rounds are enough for all words, and all but those below zero end in them. -/
theorem isSome_writeGroups?_iff {left : Int64} {rounds : Nat} (hrounds : 13 ≤ rounds) :
    (writeGroups? rounds left).isSome = true ↔ 0 ≤ left.toInt := by
  constructor
  · intro h
    rw [← Int.not_lt]
    intro hneg
    rw [writeGroups?_of_neg hneg] at h
    exact Bool.false_ne_true h
  · intro h
    have hlt := left.toInt_lt
    have hn : left.toInt = (left.toInt.toNat : Nat) := by omega
    have hlength : (digits left.toInt.toNat).length ≤ 12 + 1 := length_digits_le (by omega)
    rw [writeGroups?_eq hn (by omega)]
    rfl

/-! ## Numbers -/

theorem signed?_eq {value : Int64} (h : value.toInt.natAbs < 2 ^ 62) :
    ∃ left, signed? value = some left ∧ left.toInt = zigzag value.toInt := by
  rw [signed?, zigzag]
  by_cases hneg : value < 0
  · have hneg' : value.toInt < 0 := Int64.lt_iff_toInt_lt.mp hneg
    obtain ⟨magnitude, hmagnitude, habs⟩ := word?_eq (n := -value.toInt) (by omega) (by omega)
    obtain ⟨doubled, hdoubled, htwice⟩ :=
      word?_eq (n := 2 * magnitude.toInt) (by omega) (by omega)
    have heven : doubled.toInt = 2 * (value.toInt.natAbs : Nat) := by omega
    refine ⟨doubled ||| 1, ?_, ?_⟩
    · rw [if_pos hneg, hmagnitude]
      show (do let doubled ← word? (2 * magnitude.toInt); return doubled ||| 1) = _
      rw [hdoubled]
      rfl
    · rw [toInt_odd heven, if_pos hneg']
      push_cast
      rfl
  · have hneg' : ¬ value.toInt < 0 := fun h0 => hneg (Int64.lt_iff_toInt_lt.mpr h0)
    obtain ⟨doubled, hdoubled, htwice⟩ := word?_eq (n := 2 * value.toInt) (by omega) (by omega)
    refine ⟨doubled, ?_, ?_⟩
    · rw [if_neg hneg, hdoubled]
    · rw [htwice, if_neg hneg']
      omega

/-- A number is written without leaving the words, in as many rounds as it has digits. -/
theorem write?_eq {value : Int64} (h : value.toInt.natAbs < 2 ^ 62) {rounds : Nat}
    (hrounds : (digits (zigzag value.toInt)).length ≤ rounds) :
    write? rounds value = some (encode value.toInt) := by
  obtain ⟨left, hleft, hzigzag⟩ := signed?_eq h
  rw [write?, hleft]
  exact writeGroups?_eq hzigzag hrounds

/-- With its sign a number has one bit more, and rounds for these bits are enough. -/
theorem write?_of_lt {value : Int64} (h : value.toInt.natAbs < 2 ^ 62) {k rounds : Nat}
    (hbits : 2 * value.toInt.natAbs + 1 < 32 ^ (k + 1)) (hrounds : k + 1 ≤ rounds) :
    write? rounds value = some (encode value.toInt) := by
  have hzigzag : zigzag value.toInt < 32 ^ (k + 1) := by
    rw [zigzag]
    split <;> omega
  exact write?_eq h (Nat.le_trans (length_digits_le hzigzag) hrounds)

end ParseView.SourceMap.Vlq
