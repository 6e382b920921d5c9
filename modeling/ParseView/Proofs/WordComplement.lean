import ParseView.Aria.Constant
import ParseView.Proofs.NearestDouble

/-!
# The complement of a double

Scripts turn over the bits of a number by cutting it to a whole number, taking that modulo
two to the thirty-second, and reading the turned bits with a sign (`Binary64.bitwiseNot`).
The evaluator takes a way around by sixty-four bits, to whose range a greater number is cut
before the rest is left away.

Within that range both agree. Below it they agree only on multiples of two to the
thirty-second, since the least number of the range is one. Above it they never do: the
greatest number of the range is odd, and all doubles up there are even.
-/

namespace ParseView.Binary64

/-! ## Whole numbers in doubles -/

/-- A double without its fraction. -/
def whole (x : Binary64) : Int := x.units.tdiv (2 ^ leastPower)

theorem exponent_ge (x : Binary64) : -(leastPower : Int) ≤ x.exponent := by
  rw [exponent, leastPower]
  omega

theorem whole_quotient (x : Binary64) :
    x.significand * 2 ^ x.exponent.toNat / 2 ^ (-x.exponent).toNat =
      x.significand * 2 ^ (x.exponent + leastPower).toNat / 2 ^ leastPower := by
  have hexponent := x.exponent_ge
  have hpow : x.exponent.toNat + leastPower =
      (x.exponent + leastPower).toNat + (-x.exponent).toNat := by omega
  calc x.significand * 2 ^ x.exponent.toNat / 2 ^ (-x.exponent).toNat
      = x.significand * 2 ^ x.exponent.toNat * 2 ^ leastPower /
          (2 ^ (-x.exponent).toNat * 2 ^ leastPower) :=
        (Nat.mul_div_mul_right _ _ (Nat.two_pow_pos _)).symm
    _ = x.significand * 2 ^ (x.exponent + leastPower).toNat * 2 ^ (-x.exponent).toNat /
          (2 ^ leastPower * 2 ^ (-x.exponent).toNat) := by
        rw [Nat.mul_assoc, ← Nat.pow_add, hpow, Nat.pow_add, ← Nat.mul_assoc,
          Nat.mul_comm (2 ^ leastPower)]
    _ = x.significand * 2 ^ (x.exponent + leastPower).toNat / 2 ^ leastPower :=
        Nat.mul_div_mul_right _ _ (Nat.two_pow_pos _)

/-- The fraction is dropped by a shift to the right. -/
theorem truncate_eq_whole (x : Binary64) : x.truncate = x.whole := by
  have hcast : ((2 : Int) ^ leastPower) = ((2 ^ leastPower : Nat) : Int) := by push_cast; rfl
  rw [truncate, whole, units, hcast]
  simp only [scaleTwo_whole, x.whole_quotient, Int.ofNat_tdiv]
  split
  · rw [Int.neg_tdiv]
  · rfl

/-- A whole number of at most fifty-three bits has a double of its own. -/
theorem units_ofInt_of_lt {i : Int} (h : i.natAbs < 2 ^ 53) :
    (ofInt i).isFinite = true ∧ (ofInt i).units = i * 2 ^ leastPower := by
  by_cases hi : i = 0
  · subst hi
    have hzero : (ofInt 0).units = 0 := by decide
    exact ⟨by decide, by rw [hzero, zero_mul]⟩
  · have hn : i.natAbs ≠ 0 := Int.natAbs_ne_zero.mpr hi
    have hlog : Nat.log2 i.natAbs ≤ 52 := Nat.le_of_lt_succ ((Nat.log2_lt hn).mpr h)
    obtain ⟨hfinite, hunits⟩ := units_ofInt hi (by omega)
    have hround (m : Nat) : roundDiv m 1 = m := by simp [roundDiv, Nat.mod_one]
    have hpow : 52 - Nat.log2 i.natAbs + (Nat.log2 i.natAbs + 1022) = leastPower := by
      rw [leastPower]
      omega
    refine ⟨hfinite, ?_⟩
    rw [hunits, wholeSignificand, show Nat.log2 i.natAbs - 52 = 0 by omega, Nat.pow_zero, hround,
      Nat.cast_mul, mul_assoc, Nat.cast_pow, Nat.cast_ofNat, ← pow_add, hpow, ← mul_assoc,
      Int.sign_mul_natAbs]

theorem ofInt_inj_of_lt {i j : Int} (hi : i.natAbs < 2 ^ 53) (hj : j.natAbs < 2 ^ 53) :
    ofInt i = ofInt j ↔ i = j := by
  constructor
  · intro h
    have hunits : i * 2 ^ leastPower = j * 2 ^ leastPower := by
      rw [← (units_ofInt_of_lt hi).2, ← (units_ofInt_of_lt hj).2, h]
    exact mul_right_cancel₀ (by positivity) hunits
  · rintro rfl
    rfl

/-- Doubles past the range of sixty-four bits are even. -/
theorem two_dvd_whole {x : Binary64} (h : 2 ^ 63 ≤ x.whole) : (2 : Int) ∣ x.whole := by
  have hunit : exponentUnit = 2 ^ 52 := by decide
  have hsignificand := x.significand_lt
  have hwhole : x.whole.natAbs =
      x.significand * 2 ^ x.exponent.toNat / 2 ^ (-x.exponent).toNat := by
    rw [← truncate_eq_whole, truncate]
    simp only [scaleTwo_whole]
    split <;> simp only [Int.natAbs_neg, Int.natAbs_natCast]
  rw [← Int.dvd_natAbs, hwhole]
  by_cases hexponent : x.exponent ≤ 0
  · rw [show x.exponent.toNat = 0 by omega, Nat.pow_zero, Nat.mul_one] at hwhole
    have hle := Nat.div_le_self x.significand (2 ^ (-x.exponent).toNat)
    omega
  · obtain ⟨k, hk⟩ : ∃ k, x.exponent.toNat = k + 1 := ⟨x.exponent.toNat - 1, by omega⟩
    rw [show (-x.exponent).toNat = 0 by omega, Nat.pow_zero, Nat.div_one, hk, Nat.pow_succ,
      ← Nat.mul_assoc]
    exact_mod_cast Nat.dvd_mul_left 2 _

/-! ## Words of thirty-two bits -/

/-- What scripts make of a double before they look at its bits. -/
def word (x : Binary64) : BitVec 32 := if x.isFinite then BitVec.ofInt 32 x.whole else 0

/-- The complement of a double as scripts have it. -/
def bitwiseNot (x : Binary64) : Binary64 := ofInt (~~~ x.word).toInt

theorem toInt_not (w : BitVec 32) : (~~~ w).toInt = -w.toInt - 1 := by
  have hlt := w.isLt
  rw [BitVec.toInt_not]
  simp only [BitVec.toInt, Int.bmod]
  omega

/-- The double has the value of the turned bits exactly. -/
theorem units_bitwiseNot (x : Binary64) :
    x.bitwiseNot.isFinite = true ∧
      x.bitwiseNot.units = (~~~ x.word).toInt * 2 ^ leastPower := by
  have hlow := (~~~ x.word).le_toInt
  have hhigh := (~~~ x.word).toInt_lt
  exact units_ofInt_of_lt (by omega)

end ParseView.Binary64

namespace ParseView.Aria

open Binary64 (ofInt)

theorem toInt32_bounds (n : Int) : -2 ^ 31 ≤ toInt32 n ∧ toInt32 n < 2 ^ 31 := by
  simp only [toInt32, Int.bmod]
  omega

/-- The evaluator's complement is that of scripts up to the least number of sixty-four bits, and
beyond that on multiples of two to the thirty-second. -/
theorem complement_eq_bitwiseNot_iff {x : Binary64} (hfinite : x.isFinite = true) :
    complement x = x.bitwiseNot ↔
      x.whole < 2 ^ 63 ∧ (-2 ^ 63 ≤ x.whole ∨ (2 : Int) ^ 32 ∣ x.whole) := by
  have hspec : x.word.toInt = x.whole.bmod (2 ^ 32) := by
    rw [Binary64.word, if_pos hfinite, BitVec.toInt_ofInt]
  have heven : 2 ^ 63 ≤ x.whole → (2 : Int) ∣ x.whole := Binary64.two_dvd_whole
  have hbounds := toInt32_bounds x.whole
  have hlow := x.word.le_toInt
  have hhigh := x.word.toInt_lt
  rw [complement, Binary64.bitwiseNot, Binary64.truncate_eq_whole, Binary64.toInt_not,
    Binary64.ofInt_inj_of_lt (by omega) (by omega), hspec]
  simp only [toInt32, Int.bmod]
  generalize x.whole = n at *
  omega

end ParseView.Aria
