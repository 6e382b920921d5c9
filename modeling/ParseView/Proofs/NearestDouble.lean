import Mathlib.Algebra.Order.Group.Unbundled.Int
import Mathlib.Algebra.Order.Ring.Abs
import Mathlib.Tactic.LinearCombination
import Mathlib.Tactic.Positivity
import Mathlib.Tactic.Ring
import ParseView.Number.Binary64

/-!
# The double of a whole number is the nearest one

A finite double is a whole number of the least positive double, `2 ^ -1074`, and so is
every whole number. Measured in these units (`Binary64.units`) the distance of a double
from a whole number is a whole number as well, and `Binary64.Nearest` compares such
distances with those of all finite doubles.

The double that is made has the exponent of its whole number. The doubles with this
exponent or a greater one are multiples of one unit, and rounding takes the nearest
multiple (`roundDiv_nearest`). Doubles with a lesser exponent lie below the first of
these multiples, which itself does not lie above the number.
-/

namespace ParseView.Binary64

/-- The least positive double is two to minus this power. -/
def leastPower : Nat := 1074

/-- A finite double, counted in units of the least positive one. -/
def units (x : Binary64) : Int :=
  let magnitude : Int := (x.significand * 2 ^ (x.exponent + leastPower).toNat : Nat)
  if x.isNegative then -magnitude else magnitude

/-- No finite double is nearer to the whole number. -/
def Nearest (i : Int) (x : Binary64) : Prop :=
  x.isFinite = true ∧ ∀ y : Binary64, y.isFinite = true →
    |x.units - i * 2 ^ leastPower| ≤ |y.units - i * 2 ^ leastPower|

/-! ## Rounding a quotient -/

section RoundDiv

variable {num den : Nat}

/-- A quotient is rounded down or up, whichever is not farther. -/
theorem roundDiv_cases (num den : Nat) :
    roundDiv num den = num / den ∧ 2 * (num % den) ≤ den ∨
      roundDiv num den = num / den + 1 ∧ den ≤ 2 * (num % den) := by
  have hodd := Nat.mod_two_eq_zero_or_one (num / den)
  simp only [roundDiv]
  split
  · omega
  · split <;> omega

/-- Rounding a quotient finds the nearest whole number. -/
theorem roundDiv_nearest (hden : 0 < den) (t : Int) :
    |(roundDiv num den : Int) * den - num| ≤ |t * den - num| := by
  have hnum : (num : Int) = (num / den : Nat) * den + (num % den : Nat) := by
    have h := Nat.div_add_mod' num den
    exact_mod_cast h.symm
  have hmod : num % den < den := Nat.mod_lt num hden
  have hround : |(roundDiv num den : Int) * den - num| ≤ (num % den : Nat) ∧
      |(roundDiv num den : Int) * den - num| ≤ (den : Int) - (num % den : Nat) := by
    rcases roundDiv_cases num den with ⟨hr, hle⟩ | ⟨hr, hle⟩
    · rw [hr, hnum, abs_le, abs_le]
      omega
    · rw [hr, hnum, abs_le, abs_le, Nat.cast_add, add_mul]
      omega
  rcases Int.lt_or_le (num / den : Nat) t with hlt | hle
  · refine hround.2.trans (le_trans ?_ (le_abs_self _))
    have hmul : (((num / den : Nat) : Int) + 1) * den ≤ t * den :=
      Int.mul_le_mul_of_nonneg_right hlt (Int.natCast_nonneg den)
    rw [add_mul, one_mul] at hmul
    omega
  · refine hround.1.trans (le_trans ?_ (neg_le_abs _))
    have hmul : t * den ≤ ((num / den : Nat) : Int) * den :=
      Int.mul_le_mul_of_nonneg_right hle (Int.natCast_nonneg den)
    omega

end RoundDiv

/-! ## Bits -/

section Bits

variable {negative : Bool} {magnitude : Nat}

theorem toNat_ofMagnitudeBits (h : magnitude < signUnit) :
    (ofMagnitudeBits negative magnitude).bits.toNat =
      if negative then signUnit + magnitude else magnitude := by
  rw [ofMagnitudeBits, UInt64.toNat_ofNat', Nat.mod_eq_of_lt]
  rw [signUnit] at h ⊢
  split <;> omega

theorem magnitudeBits_ofMagnitudeBits (h : magnitude < signUnit) :
    (ofMagnitudeBits negative magnitude).magnitudeBits = magnitude := by
  rw [magnitudeBits, toNat_ofMagnitudeBits h]
  split
  · rw [Nat.add_mod_left, Nat.mod_eq_of_lt h]
  · exact Nat.mod_eq_of_lt h

theorem isNegative_ofMagnitudeBits (h : magnitude < signUnit) :
    (ofMagnitudeBits negative magnitude).isNegative = negative := by
  rw [isNegative, toNat_ofMagnitudeBits h]
  cases negative with
  | true => simp
  | false => simpa using h

/-- The bits of an exponent, and of a significand that may have rounded up to the next
power of two. -/
theorem of_magnitudeBits_eq {x : Binary64} {k r : Nat} (hr : exponentUnit ≤ r)
    (hr' : r ≤ 2 * exponentUnit) (h : x.magnitudeBits = k * exponentUnit + r) :
    x.significand * 2 ^ (x.exponent + leastPower).toNat = r * 2 ^ k ∧ x.exponentField ≤ k + 2 := by
  have hpos : 0 < exponentUnit := by decide
  by_cases htop : r = 2 * exponentUnit
  · have hfield : x.exponentField = k + 2 := by
      rw [exponentField, h, htop, ← Nat.add_mul, Nat.mul_div_cancel _ hpos]
    have hfraction : x.fractionField = 0 := by
      rw [fractionField, h, htop, ← Nat.add_mul, Nat.mul_mod_left]
    have hexponent : (x.exponent + leastPower).toNat = k + 1 := by
      rw [exponent, hfield, leastPower]
      omega
    rw [significand, hexponent, hfield, hfraction, if_neg (by omega), htop, Nat.pow_succ]
    exact ⟨by ring, Nat.le_refl _⟩
  · have hsplit : x.magnitudeBits = (k + 1) * exponentUnit + (r - exponentUnit) := by
      rw [h, Nat.add_mul]
      omega
    have hlt : r - exponentUnit < exponentUnit := by omega
    have hfield : x.exponentField = k + 1 := by
      rw [exponentField, hsplit, Nat.mul_comm, Nat.mul_add_div hpos, Nat.div_eq_of_lt hlt,
        Nat.add_zero]
    have hfraction : x.fractionField = r - exponentUnit := by
      rw [fractionField, hsplit, Nat.mul_comm, Nat.mul_add_mod, Nat.mod_eq_of_lt hlt]
    have hexponent : (x.exponent + leastPower).toNat = k := by
      rw [exponent, hfield, leastPower]
      omega
    rw [significand, hexponent, hfield, hfraction, if_neg (by omega), Nat.sub_add_cancel hr]
    exact ⟨rfl, by omega⟩

theorem significand_lt (x : Binary64) : x.significand < 2 * exponentUnit := by
  have hlt : x.fractionField < exponentUnit := Nat.mod_lt _ (by decide)
  rw [significand]
  split <;> omega

end Bits

/-! ## Whole numbers -/

section Whole

variable {n : Nat}

theorem scaleTwo_whole (e : Int) (n : Nat) :
    scaleTwo e n 1 = (n * 2 ^ e.toNat, 2 ^ (-e).toNat) := by
  rw [scaleTwo]
  split
  · next h =>
      rw [Nat.shiftLeft_eq, show (-e).toNat = 0 by omega, Nat.pow_zero]
  · next h =>
      rw [Nat.shiftLeft_eq, show e.toNat = 0 by omega, Nat.pow_zero, Nat.mul_one, Nat.one_mul]

/-- The quotient of a whole number by a power of two, given how many bits it has. -/
theorem le_whole_div (hn : n ≠ 0) (bits : Nat) :
    2 ^ bits ≤ n * 2 ^ (bits - Nat.log2 n) / 2 ^ (Nat.log2 n - bits) := by
  have hlow : 2 ^ Nat.log2 n ≤ n := Nat.log2_self_le hn
  rw [Nat.le_div_iff_mul_le (Nat.two_pow_pos _), ← Nat.pow_add]
  calc 2 ^ (bits + (Nat.log2 n - bits))
      = 2 ^ Nat.log2 n * 2 ^ (bits - Nat.log2 n) := by rw [← Nat.pow_add]; congr 1; omega
    _ ≤ n * 2 ^ (bits - Nat.log2 n) := Nat.mul_le_mul_right _ hlow

theorem whole_div_lt (n bits : Nat) :
    n * 2 ^ (bits - Nat.log2 n) / 2 ^ (Nat.log2 n - bits) < 2 ^ (bits + 1) := by
  have hhigh : n < 2 ^ (Nat.log2 n + 1) := Nat.lt_log2_self
  rw [Nat.div_lt_iff_lt_mul (Nat.two_pow_pos _), ← Nat.pow_add]
  calc n * 2 ^ (bits - Nat.log2 n)
      < 2 ^ (Nat.log2 n + 1) * 2 ^ (bits - Nat.log2 n) :=
        Nat.mul_lt_mul_of_pos_right hhigh (Nat.two_pow_pos _)
    _ = 2 ^ (bits + 1 + (Nat.log2 n - bits)) := by rw [← Nat.pow_add]; congr 1; omega

/-- The significand of the double of a whole number, before a carry. -/
def wholeSignificand (n : Nat) : Nat :=
  roundDiv (n * 2 ^ (52 - Nat.log2 n)) (2 ^ (Nat.log2 n - 52))

theorem wholeSignificand_bounds (hn : n ≠ 0) :
    exponentUnit ≤ wholeSignificand n ∧ wholeSignificand n ≤ 2 * exponentUnit := by
  have hlow := le_whole_div hn 52
  have hhigh := whole_div_lt n 52
  have hunit : exponentUnit = 2 ^ 52 := by decide
  rw [wholeSignificand, hunit]
  rcases roundDiv_cases (n * 2 ^ (52 - Nat.log2 n)) (2 ^ (Nat.log2 n - 52)) with
    ⟨hr, -⟩ | ⟨hr, -⟩ <;> omega

theorem ofQuotient_whole (negative : Bool) (hn : n ≠ 0) (hlog : Nat.log2 n ≤ 1022) :
    ofQuotient negative n 1 = ofMagnitudeBits negative
      ((Nat.log2 n + 1022) * exponentUnit + wholeSignificand n) := by
  have hlog1 : Nat.log2 1 = 0 := by decide
  have hlow : max ((Nat.log2 n : Int) - (0 : Nat) - 53) (-1074) = (Nat.log2 n : Int) - 53 := by
    omega
  have hunit : exponentUnit = 2 ^ 52 := by decide
  have hfull : ¬ n * 2 ^ (53 - Nat.log2 n) / 2 ^ (Nat.log2 n - 53) < 2 * exponentUnit := by
    have h := le_whole_div hn 53
    omega
  have hbounds := wholeSignificand_bounds hn
  have hfinite : (Nat.log2 n + 1022) * exponentUnit + wholeSignificand n ≤ infinityBits := by
    have hmul : (Nat.log2 n + 1022) * exponentUnit ≤ 2044 * exponentUnit :=
      Nat.mul_le_mul_right _ (by omega)
    rw [infinityBits]
    omega
  have h53 : (-((Nat.log2 n : Int) - 53)).toNat = 53 - Nat.log2 n := by omega
  have h53' : (- -((Nat.log2 n : Int) - 53)).toNat = Nat.log2 n - 53 := by omega
  have h52 : (-((Nat.log2 n : Int) - 53 + 1)).toNat = 52 - Nat.log2 n := by omega
  have h52' : (- -((Nat.log2 n : Int) - 53 + 1)).toNat = Nat.log2 n - 52 := by omega
  have hexponent : ((Nat.log2 n : Int) - 53 + 1 + 1074).toNat = Nat.log2 n + 1022 := by omega
  rw [ofQuotient, if_neg hn, hlog1]
  simp only [hlow, scaleTwo_whole, h53, h53', if_neg hfull, h52, h52', hexponent]
  rw [← wholeSignificand, Nat.min_eq_left hfinite]

/-! ## The nearest double -/

/-- Rounding at a power of two takes the nearest multiple of it. -/
theorem roundDiv_pow_nearest (n : Nat) {down up k whole : Nat} (hpow : down + k = whole + up)
    (t : Int) :
    |(roundDiv (n * 2 ^ down) (2 ^ up) : Int) * 2 ^ k - n * 2 ^ whole| ≤
      |t * 2 ^ k - n * 2 ^ whole| := by
  have hup : (0 : Int) < 2 ^ up := by positivity
  have hk : (0 : Int) < 2 ^ k := by positivity
  have hscaled (t : Int) :
      |t * 2 ^ k - n * 2 ^ whole| * 2 ^ up =
        |t * (2 ^ up : Nat) - (n * 2 ^ down : Nat)| * 2 ^ k := by
    have hcommon : ((2 : Int) ^ down) * 2 ^ k = 2 ^ whole * 2 ^ up := by
      rw [← pow_add, ← pow_add, hpow]
    calc |t * 2 ^ k - n * 2 ^ whole| * 2 ^ up
        = |(t * 2 ^ k - n * 2 ^ whole) * 2 ^ up| := by rw [abs_mul, abs_of_pos hup]
      _ = |(t * (2 ^ up : Nat) - (n * 2 ^ down : Nat)) * 2 ^ k| := by
        congr 1
        push_cast
        linear_combination (n : Int) * hcommon
      _ = |t * (2 ^ up : Nat) - (n * 2 ^ down : Nat)| * 2 ^ k := by
        rw [abs_mul, abs_of_pos hk]
  have hnearest : |(roundDiv (n * 2 ^ down) (2 ^ up) : Int) * (2 ^ up : Nat) -
        (n * 2 ^ down : Nat)| ≤ |t * (2 ^ up : Nat) - (n * 2 ^ down : Nat)| :=
    roundDiv_nearest (Nat.two_pow_pos up) t
  refine le_of_mul_le_mul_right ?_ hup
  rw [hscaled, hscaled]
  exact Int.mul_le_mul_of_nonneg_right hnearest (Int.le_of_lt hk)

theorem wholeSignificand_nearest (n : Nat) (t : Int) :
    |(wholeSignificand n : Int) * 2 ^ (Nat.log2 n + 1022) - n * 2 ^ leastPower| ≤
      |t * 2 ^ (Nat.log2 n + 1022) - n * 2 ^ leastPower| := by
  have hpow : 52 - Nat.log2 n + (Nat.log2 n + 1022) = leastPower + (Nat.log2 n - 52) := by
    rw [leastPower]
    omega
  exact roundDiv_pow_nearest n hpow t

/-- Neither is any other finite magnitude, with either sign. -/
theorem wholeSignificand_nearest_of_natAbs (hn : n ≠ 0) {s k : Nat}
    (hs : s < 2 * exponentUnit) {z : Int} (hz : z.natAbs = s * 2 ^ k) :
    |(wholeSignificand n : Int) * 2 ^ (Nat.log2 n + 1022) - n * 2 ^ leastPower| ≤
      |z - n * 2 ^ leastPower| := by
  by_cases hk : Nat.log2 n + 1022 ≤ k
  · have hdvd : (2 : Int) ^ (Nat.log2 n + 1022) ∣ z := by
      rw [← Int.dvd_natAbs, hz, Nat.cast_mul, Nat.cast_pow]
      exact Dvd.dvd.mul_left (pow_dvd_pow 2 hk) _
    obtain ⟨t, rfl⟩ := hdvd
    rw [mul_comm ((2 : Int) ^ (Nat.log2 n + 1022)) t]
    exact wholeSignificand_nearest n t
  · -- The magnitude lies below the least multiple of the unit with this exponent.
    have hfirst : exponentUnit * 2 ^ (Nat.log2 n + 1022) ≤ n * 2 ^ leastPower := by
      have hunit : exponentUnit = 2 ^ 52 := by decide
      have hpow : 52 + (Nat.log2 n + 1022) = Nat.log2 n + leastPower := by
        rw [leastPower]
        omega
      rw [hunit, ← Nat.pow_add, hpow, Nat.pow_add]
      exact Nat.mul_le_mul_right _ (Nat.log2_self_le hn)
    have hbelow : s * 2 ^ k ≤ exponentUnit * 2 ^ (Nat.log2 n + 1022) := by
      calc s * 2 ^ k
          ≤ 2 * exponentUnit * 2 ^ k := Nat.mul_le_mul_right _ (Nat.le_of_lt hs)
        _ = exponentUnit * 2 ^ (k + 1) := by ring
        _ ≤ exponentUnit * 2 ^ (Nat.log2 n + 1022) :=
          Nat.mul_le_mul_left _ (Nat.pow_le_pow_right (by decide) (by omega))
    have hnearest := wholeSignificand_nearest n exponentUnit
    have hfirst' : (exponentUnit : Int) * 2 ^ (Nat.log2 n + 1022) ≤ n * 2 ^ leastPower := by
      exact_mod_cast hfirst
    have hz' : z ≤ (exponentUnit : Int) * 2 ^ (Nat.log2 n + 1022) := by
      have hle : (z.natAbs : Int) ≤ exponentUnit * 2 ^ (Nat.log2 n + 1022) := by
        rw [hz]
        exact_mod_cast hbelow
      omega
    refine hnearest.trans ?_
    rw [abs_of_nonpos (by omega), abs_of_nonpos (by omega)]
    omega

end Whole

/-! ## The double of a whole number -/

theorem natAbs_units (x : Binary64) :
    x.units.natAbs = x.significand * 2 ^ (x.exponent + leastPower).toNat := by
  rw [units]
  split <;> omega

/-- The double that is made of a whole number is a finite one of its sign. -/
theorem units_ofInt {i : Int} (hi : i ≠ 0) (hlog : Nat.log2 i.natAbs ≤ 1022) :
    (ofInt i).isFinite = true ∧ (ofInt i).units =
      i.sign * (wholeSignificand i.natAbs * 2 ^ (Nat.log2 i.natAbs + 1022)) := by
  have hn : i.natAbs ≠ 0 := Int.natAbs_ne_zero.mpr hi
  obtain ⟨hlow, hhigh⟩ := wholeSignificand_bounds hn
  have hsmall : (Nat.log2 i.natAbs + 1022) * exponentUnit + wholeSignificand i.natAbs <
      signUnit := by
    have hmul : (Nat.log2 i.natAbs + 1022) * exponentUnit ≤ 2044 * exponentUnit :=
      Nat.mul_le_mul_right _ (by omega)
    have hsign : signUnit = 2048 * exponentUnit := by decide
    have hpos : 0 < exponentUnit := by decide
    omega
  rw [ofInt, ofQuotient_whole _ hn hlog]
  have hbits : (ofMagnitudeBits (decide (i < 0)) _).magnitudeBits = _ :=
    magnitudeBits_ofMagnitudeBits hsmall
  have hnegative : (ofMagnitudeBits (decide (i < 0)) _).isNegative = decide (i < 0) :=
    isNegative_ofMagnitudeBits hsmall
  obtain ⟨hmagnitude, hfield⟩ := of_magnitudeBits_eq hlow hhigh hbits
  refine ⟨?_, ?_⟩
  · rw [isFinite, decide_eq_true_eq]
    omega
  · rw [units, hmagnitude, hnegative]
    rcases Int.lt_or_gt_of_ne hi with hlt | hgt
    · rw [decide_eq_true hlt, if_pos rfl, Int.sign_eq_neg_one_of_neg hlt, neg_one_mul,
        Nat.cast_mul, Nat.cast_pow, Nat.cast_ofNat]
    · have hnot : ¬ i < 0 := Int.not_lt.mpr (Int.le_of_lt hgt)
      rw [decide_eq_false hnot, if_neg Bool.false_ne_true, Int.sign_eq_one_of_pos hgt, one_mul,
        Nat.cast_mul, Nat.cast_pow, Nat.cast_ofNat]

/-- The double that is made of a whole number of at most 1023 bits is the nearest one. -/
theorem ofInt_nearest {i : Int} (hlog : Nat.log2 i.natAbs ≤ 1022) : Nearest i (ofInt i) := by
  by_cases hi : i = 0
  · subst hi
    refine ⟨by decide, ?_⟩
    intro y hy
    have hzero : (ofInt 0).units = 0 := by decide
    rw [hzero, zero_mul, sub_zero, abs_zero]
    exact abs_nonneg _
  · obtain ⟨hfinite, hunits⟩ := units_ofInt hi hlog
    refine ⟨hfinite, ?_⟩
    intro y hy
    have hn : i.natAbs ≠ 0 := Int.natAbs_ne_zero.mpr hi
    have hnear (z : Int) (hz : z.natAbs = y.units.natAbs) :=
      wholeSignificand_nearest_of_natAbs hn y.significand_lt (hz.trans y.natAbs_units)
    rw [hunits]
    rcases Int.lt_or_gt_of_ne hi with hlt | hgt
    · -- Below zero all signs change.
      have h := hnear (-y.units) (Int.natAbs_neg _)
      have hcast : (i.natAbs : Int) = -i := Int.ofNat_natAbs_of_nonpos (Int.le_of_lt hlt)
      have hflip (a p : Int) : |-a - i * p| = |a - -i * p| := by
        rw [← abs_neg]
        congr 1
        ring
      rw [hcast, ← hflip, ← hflip, neg_neg] at h
      rw [Int.sign_eq_neg_one_of_neg hlt, neg_one_mul]
      exact h
    · have h := hnear y.units rfl
      have hcast : (i.natAbs : Int) = i := Int.natAbs_of_nonneg (Int.le_of_lt hgt)
      rw [hcast] at h
      rw [Int.sign_eq_one_of_pos hgt, one_mul]
      exact h

end ParseView.Binary64
