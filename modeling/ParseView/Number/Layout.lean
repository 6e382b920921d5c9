import ParseView.Number.Shortest

/-!
# How numbers are written

Two ways of laying out the same shortest digits: the one of the interchange format, which turns to
an exponent for very large and very small numbers and always shows that the number is a double, and
the plain one, which writes every digit position out and keeps a whole number whole.
-/

namespace ParseView.Binary64

def signText (x : Binary64) : List Char := if x.isNegative then ['-'] else []

def zeros (n : Nat) : List Char := List.replicate n '0'

/-- Digits with the point where it belongs; `whole` is appended when no digit follows the point. -/
def positional (d : Decimal) (whole : List Char) : List Char :=
  let digits := d.text
  if d.point ≤ 0 then '0' :: '.' :: (zeros (-d.point).toNat ++ digits)
  else
    let k := d.point.toNat
    if k < digits.length then digits.take k ++ '.' :: digits.drop k
    else digits ++ zeros (k - digits.length) ++ whole

/-- One digit before the point, and the exponent with its sign. -/
def scientific (d : Decimal) : List Char :=
  let mantissa := match d.text with
    | [] => []
    | [c] => [c]
    | c :: rest => c :: '.' :: rest
  let power := d.point - 1
  let sign := if power < 0 then '-' else '+'
  mantissa ++ 'e' :: sign :: Nat.toDigits 10 power.natAbs

/-- A finite double in the interchange format: positional while the point is at most five places
left and sixteen right of the first digit. -/
def interchangeText (x : Binary64) : List Char :=
  if x.isZero then x.signText ++ ['0', '.', '0']
  else
    let d := x.shortest
    let body := if -5 < d.point ∧ d.point ≤ 16 then positional d ['.', '0'] else scientific d
    x.signText ++ body

/-- Any double written out in full, never with an exponent. -/
def plainText (x : Binary64) : List Char :=
  if x.isNaN then ['N', 'a', 'N']
  else if x.isInfinite then x.signText ++ ['i', 'n', 'f']
  else if x.isZero then x.signText ++ ['0']
  else x.signText ++ positional x.shortest []

end ParseView.Binary64
