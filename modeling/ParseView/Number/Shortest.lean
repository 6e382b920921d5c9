import ParseView.Number.Binary64

/-!
# The shortest decimal that reads back

Every decimal in the interval of numbers that round to a double reads back as it. Among them this
module takes the ones with the fewest digits, and of those the one nearest to the double; an exact
tie goes to the even last digit. The search is exact: it looks at one, two, … seventeen digits and
tests, at each length, the two neighbours of the double on that decimal grid.
-/

namespace ParseView

/-- The positive number `digits * 10 ^ exponent`. -/
structure Decimal where
  digits : Nat
  exponent : Int
deriving DecidableEq, Repr

namespace Decimal

/-- Moves trailing zeros of the digits into the exponent. -/
def normalize (d : Decimal) : Decimal :=
  if h : d.digits ≠ 0 ∧ d.digits % 10 = 0 then
    normalize ⟨d.digits / 10, d.exponent + 1⟩
  else d
termination_by d.digits
decreasing_by exact Nat.div_lt_self (Nat.pos_of_ne_zero h.1) (by decide)

/-- The written digits, without leading or trailing zeros of a normalized decimal. -/
def text (d : Decimal) : List Char := Nat.toDigits 10 d.digits

/-- The power of ten of the decimal point, counted from the left of the first digit. -/
def point (d : Decimal) : Int := d.text.length + d.exponent

end Decimal

namespace Binary64

/-- The interval of numbers that round to `m * 2 ^ e`, in units of `2 ^ (e - 2)`. It reaches half
way to either neighbour, and the lower neighbour of a power of two is only half as far. Its ends
belong to it when the significand is even. -/
structure Rounding where
  low : Nat
  value : Nat
  high : Nat
  unit : Int
  closed : Bool

def rounding (x : Binary64) : Rounding :=
  let m := x.significand
  let narrow := x.fractionField = 0 ∧ 1 < x.exponentField
  { low := if narrow then 4 * m - 1 else 4 * m - 2
    value := 4 * m
    high := 4 * m + 2
    unit := x.exponent - 2
    closed := m % 2 = 0 }

/-- `n * 2 ^ unit / 10 ^ q` as a numerator over a denominator. -/
def onGrid (unit q : Int) (n : Nat) : Nat × Nat :=
  let (num, den) := scaleTwo unit n 1
  if 0 ≤ q then (num, den * Nat.pow 10 q.toNat) else (num * Nat.pow 10 (-q).toNat, den)

/-- Does the grid point `point * 10 ^ q` round to the double? -/
def Rounding.holds (r : Rounding) (q : Int) (point : Nat) : Bool :=
  let (low, den) := onGrid r.unit q r.low
  let (high, _) := onGrid r.unit q r.high
  if r.closed then low ≤ point * den && point * den ≤ high
  else low < point * den && point * den < high

/-- The better neighbour on the grid of step `10 ^ q`, if one of them rounds to the double. -/
def Rounding.onStep? (r : Rounding) (q : Int) : Option Decimal :=
  let (num, den) := onGrid r.unit q r.value
  let below := num / den
  let twice := 2 * (num % den)
  match r.holds q below, r.holds q (below + 1) with
  | false, false => none
  | true, false => some ⟨below, q⟩
  | false, true => some ⟨below + 1, q⟩
  | true, true =>
    if twice < den then some ⟨below, q⟩
    else if den < twice then some ⟨below + 1, q⟩
    else some ⟨below + below % 2, q⟩

/-- The power of ten of the first digit: `10 ^ k ≤ value < 10 ^ (k + 1)`. -/
def leadingPower (r : Rounding) : Int :=
  let binary : Int := Nat.log2 r.value + r.unit
  let guess := Int.fdiv (binary * 30103) 100000
  let reaches (k : Int) : Bool :=
    let (num, den) := onGrid r.unit k r.value
    den ≤ num
  if reaches (guess + 1) then guess + 1
  else if reaches guess then guess
  else guess - 1

/-- The shortest decimal of a finite double's magnitude that reads back as it; zero is `0`. -/
def shortest (x : Binary64) : Decimal :=
  if x.isZero then ⟨0, 0⟩
  else
    let r := x.rounding
    let lead := leadingPower r
    -- Seventeen digits always suffice.
    let found := (List.range 17).findSome? fun (n : Nat) => r.onStep? (lead - n)
    (found.getD ⟨0, 0⟩).normalize

end Binary64

end ParseView
