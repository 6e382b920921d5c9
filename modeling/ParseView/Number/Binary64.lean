/-!
# Doubles as exact numbers

A double is kept as its sixty-four bits, and every operation on it is a statement about whole
numbers: a finite double is `significand * 2 ^ exponent`, and an operation rounds the exact result
once, to the nearest double, a tie going to the even significand. Nothing here depends on the
machine's arithmetic, so a value that is read, negated or cut to an integer can be reasoned about.
-/

namespace ParseView

/-- A double, by its bits: sign, eleven bits of exponent, fifty-two of fraction. -/
structure Binary64 where
  bits : UInt64
deriving DecidableEq, Repr, Inhabited

namespace Binary64

/-- What the sign bit counts: two to the sixty-third. -/
def signUnit : Nat := 0x8000000000000000

/-- What the lowest bit of the exponent counts: two to the fifty-second. -/
def exponentUnit : Nat := 0x10000000000000

def isNegative (x : Binary64) : Bool := signUnit ≤ x.bits.toNat

/-- The bits without the sign. -/
def magnitudeBits (x : Binary64) : Nat := x.bits.toNat % signUnit

def exponentField (x : Binary64) : Nat := x.magnitudeBits / exponentUnit

def fractionField (x : Binary64) : Nat := x.magnitudeBits % exponentUnit

def isFinite (x : Binary64) : Bool := x.exponentField < 2047

def isNaN (x : Binary64) : Bool := x.exponentField == 2047 && x.fractionField != 0

def isInfinite (x : Binary64) : Bool := x.exponentField == 2047 && x.fractionField == 0

/-- Both zeros. -/
def isZero (x : Binary64) : Bool := x.magnitudeBits == 0

/-- The whole number `m` of a finite magnitude `m * 2 ^ exponent`. -/
def significand (x : Binary64) : Nat :=
  if x.exponentField = 0 then x.fractionField else x.fractionField + exponentUnit

/-- The power of two that scales the significand; subnormal numbers share the least one. -/
def exponent (x : Binary64) : Int := (max x.exponentField 1 : Nat) - 1075

/-- Puts a sign on the bits of a magnitude. -/
def ofMagnitudeBits (negative : Bool) (magnitude : Nat) : Binary64 :=
  ⟨UInt64.ofNat (if negative then signUnit + magnitude else magnitude)⟩

/-- Bits of the infinite magnitude. -/
def infinityBits : Nat := 2047 * exponentUnit

def zero : Binary64 := ofMagnitudeBits false 0

def infinity (negative : Bool) : Binary64 := ofMagnitudeBits negative infinityBits

def nan : Binary64 := ofMagnitudeBits false (infinityBits + exponentUnit / 2)

/-- Negation flips the sign of every double, also of zero and of what is not a number. -/
def neg (x : Binary64) : Binary64 := ofMagnitudeBits (!x.isNegative) x.magnitudeBits

/-- The whole number nearest to `num / den`, a half going to the even neighbour. -/
def roundDiv (num den : Nat) : Nat :=
  let quotient := num / den
  let twice := 2 * (num % den)
  if twice < den then quotient
  else if den < twice then quotient + 1
  else quotient + quotient % 2

/-- `n * 2 ^ e` as a numerator over a denominator. -/
def scaleTwo (e : Int) (num den : Nat) : Nat × Nat :=
  if 0 ≤ e then (num <<< e.toNat, den) else (num, den <<< (-e).toNat)

/-- The double nearest to `num / den`, a tie going to the even significand. What rounds past the
greatest finite double is infinite. -/
def ofQuotient (negative : Bool) (num den : Nat) : Binary64 :=
  if num = 0 then ofMagnitudeBits negative 0
  else
    -- The quotient lies strictly between `2 ^ (width - 1)` and `2 ^ (width + 1)`.
    let width : Int := (Nat.log2 num : Int) - (Nat.log2 den : Int)
    let low : Int := max (width - 53) (-1074)
    let (n, d) := scaleTwo (-low) num den
    let unit : Int := if n / d < 2 * exponentUnit then low else low + 1
    let (n, d) := scaleTwo (-unit) num den
    -- A significand that rounds up to `2 ^ 53` carries into the exponent by this addition.
    let magnitude := (unit + 1074).toNat * exponentUnit + roundDiv n d
    ofMagnitudeBits negative (min magnitude infinityBits)

def ofNat (n : Nat) : Binary64 := ofQuotient false n 1

def ofInt (i : Int) : Binary64 := ofQuotient (i < 0) i.natAbs 1

/-- The rounded product of two finite doubles. -/
def mul (x y : Binary64) : Binary64 :=
  let (num, den) := scaleTwo (x.exponent + y.exponent) (x.significand * y.significand) 1
  ofQuotient (x.isNegative != y.isNegative) num den

/-- The rounded quotient of two finite doubles, the second one not zero. -/
def div (x y : Binary64) : Binary64 :=
  let (num, den) := scaleTwo (x.exponent - y.exponent) x.significand y.significand
  ofQuotient (x.isNegative != y.isNegative) num den

/-- The finite double `x` without its fraction. -/
def truncate (x : Binary64) : Int :=
  let (num, den) := scaleTwo x.exponent x.significand 1
  let whole : Int := (num / den : Nat)
  if x.isNegative then -whole else whole

end Binary64

end ParseView
