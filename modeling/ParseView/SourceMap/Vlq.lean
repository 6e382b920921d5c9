import ParseView.Base64

/-!
# Numbers of variable length

The numbers of a source map are written in groups of five bits, the lowest first, one character a
group; a sixth bit says that another group follows. The lowest bit of all is the sign.
-/

namespace ParseView.SourceMap.Vlq

/-- The number with its sign as the lowest bit. -/
def zigzag (value : Int) : Nat := if value < 0 then 2 * value.natAbs + 1 else 2 * value.natAbs

/-- The digits of a number, each with the bit that says whether it is followed by another one. -/
def digits (n : Nat) : List Nat :=
  if _h : n < 32 then [n] else (n % 32 + 32) :: digits (n / 32)
termination_by n
decreasing_by omega

def encode (value : Int) : List Char := (digits (zigzag value)).map Base64.digit

end ParseView.SourceMap.Vlq
