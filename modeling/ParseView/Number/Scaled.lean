import ParseView.Number.Binary64

/-!
# Doubles from decimal digits

The reader of numbers keeps sixty-four bits of significand and a power of ten. It turns them into a
double by one rounded multiplication or division with the double nearest to the power of ten, so
the result is near the number that was written but need not be the nearest double. Numbers with at
most fifteen digits and small exponents come out exactly rounded.
-/

namespace ParseView.Binary64

/-- The greatest power of ten that is a finite double. -/
def greatestPower : Nat := 308

def powerOfTen (k : Nat) : Binary64 := ofNat (Nat.pow 10 k)

/-- The finite magnitude `x * 10 ^ k`, in steps of the greatest power of ten; nothing if it is too
large for a double. -/
def scaleByPower (x : Binary64) (k : Int) : Option Binary64 :=
  if _h : k.natAbs ≤ greatestPower then
    if 0 ≤ k then
      let y := x.mul (powerOfTen k.natAbs)
      if y.isInfinite then none else some y
    else some (x.div (powerOfTen k.natAbs))
  else if x.isZero then some x
  else if _hk : 0 ≤ k then none
  else scaleByPower (x.div (powerOfTen greatestPower)) (k + greatestPower)
termination_by k.natAbs
decreasing_by simp only [greatestPower] at *; omega

/-- The double that is read for `significand * 10 ^ k`. -/
def ofScaled (negative : Bool) (significand : Nat) (k : Int) : Option Binary64 :=
  (scaleByPower (ofNat significand) k).map fun x => if negative then x.neg else x

end ParseView.Binary64
