import ParseView.Text.Case

/-!
# Sets of characters

A set is kept as it was written and asked for membership. A set that ignores case holds every
character whose case class meets it, so folding comes before a complement is taken.
-/

namespace ParseView.Pattern

inductive CharSet where
  | empty
  | range (low high : Nat)
  | union (a b : CharSet)
  | complement (s : CharSet)
  /-- Closed under simple case folding. -/
  | folded (s : CharSet)
  /-- Closed under the case of ASCII letters. -/
  | foldedAscii (s : CharSet)
deriving DecidableEq, Repr

/-- The other case of an ASCII letter. -/
def swapAsciiCase (code : Nat) : Nat :=
  if 0x41 ≤ code ∧ code ≤ 0x5A then code + 0x20
  else if 0x61 ≤ code ∧ code ≤ 0x7A then code - 0x20
  else code

namespace CharSet

def contains : CharSet → Nat → Bool
  | empty, _ => false
  | range low high, code => low ≤ code && code ≤ high
  | union a b, code => a.contains code || b.contains code
  | complement s, code => !s.contains code
  | folded s, code => s.contains code || (Text.caseClass code).any s.contains
  | foldedAscii s, code => s.contains code || s.contains (swapAsciiCase code)

def single (c : Char) : CharSet := range c.toNat c.toNat

end CharSet

end ParseView.Pattern
