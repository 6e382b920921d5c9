import ParseView.Text.CharClass

/-!
# Big integer numerals

A numeral is a run of decimal digits, or a prefix for another radix and digits of it. There is no
sign and no separator.
-/

namespace ParseView.Tree

/-- The radix that a numeral names, and its digits. -/
def splitNumeral : List Char → Nat × List Char
  | '0' :: 'x' :: digits | '0' :: 'X' :: digits => (16, digits)
  | '0' :: 'o' :: digits | '0' :: 'O' :: digits => (8, digits)
  | '0' :: 'b' :: digits | '0' :: 'B' :: digits => (2, digits)
  | digits => (10, digits)

/-- The number of a run of digits, the most significant first. -/
def digitsValue? (radix value : Nat) : List Char → Option Nat
  | [] => some value
  | c :: rest => do
    let digit ← Text.digitValue? radix c
    digitsValue? radix (value * radix + digit) rest

/-- The number that a numeral denotes. -/
def numeralValue? (numeral : List Char) : Option Nat :=
  match splitNumeral numeral with
  | (_, []) => none
  | (radix, digits) => digitsValue? radix 0 digits

end ParseView.Tree
