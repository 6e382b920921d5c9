import ParseView.Pattern.Expr

/-!
# Matching by sets of places

A pattern takes the set of places where a match may begin to the set of places where it may end. A
set of places of a text is a whole number, one bit for each place, so a set of characters is a shift
of the bits under which such a character stands, and a condition is a mask. Which of several
matches is found does not matter here, only whether there is one.
-/

namespace ParseView.Pattern

/-- The places of a text that a character of the set follows. -/
def charMask (set : CharSet) : List Char → Nat
  | [] => 0
  | c :: rest => (if set.contains c.toNat then 1 else 0) + 2 * charMask set rest

def isAsciiWord (c : Char) : Bool := Text.isAsciiAlphanumeric c || c == '_'

/-- Does the condition hold between these two characters? -/
def Look.holds : Look → Option Char → Option Char → Bool
  | .textStart, before, _ => before.isNone
  | .textEnd, _, behind => behind.isNone
  | .lineStart, before, _ => before.isNone || before == some '\n'
  | .lineEnd, _, behind => behind.isNone || behind == some '\n'
  | .lineStartCrlf, before, behind =>
    before.isNone || before == some '\n' || (before == some '\r' && behind != some '\n')
  | .lineEndCrlf, before, behind =>
    behind.isNone || behind == some '\r' || (behind == some '\n' && before != some '\r')
  | .asciiWordBoundary negated, before, behind =>
    (before.any isAsciiWord != behind.any isAsciiWord) != negated

/-- The places of a text where a condition holds, given the character before the text. -/
def Look.mask (look : Look) (before : Option Char) : List Char → Nat
  | [] => if look.holds before none then 1 else 0
  | c :: rest =>
    (if look.holds before (some c) then 1 else 0) + 2 * look.mask (some c) rest

/-- A pattern prepared for one text: its sets and conditions are the places where they hold. -/
inductive Moves where
  | stay
  | shift (mask : Nat)
  | keep (mask : Nat)
  | both (a b : Moves)
  | either (a b : Moves)
  | times (body : Moves) (least : Nat) (most : Option Nat)
deriving DecidableEq, Repr

def Expr.on (text : List Char) : Expr → Moves
  | .empty => .stay
  | .chars set => .shift (charMask set text)
  | .look condition => .keep (condition.mask none text)
  | .capture body => body.on text
  | .concat a b => .both (a.on text) (b.on text)
  | .choice a b => .either (a.on text) (b.on text)
  | .repetition body least most => .times (body.on text) least most

/-- Applies `f` so often, but stops once nothing changes any more. -/
def iterate (f : Nat → Nat) : Nat → Nat → Nat
  | 0, places => places
  | n + 1, places =>
    let next := f places
    if next = places then places else iterate f n next

/-- The places reached from `origin` by at most so many further applications of `f`. -/
def spread (f : Nat → Nat) (origin : Nat) : Nat → Nat → Nat
  | 0, reached => reached
  | n + 1, reached =>
    let next := origin ||| f reached
    if next = reached then reached else spread f origin n next

/-- The places where a match may end, of a text of `length` characters. A repetition without bound
reaches all it can in as many rounds as there are places. -/
def Moves.run (length : Nat) : Moves → Nat → Nat
  | .stay, places => places
  | .shift mask, places => (places &&& mask) <<< 1
  | .keep mask, places => places &&& mask
  | .both a b, places => b.run length (a.run length places)
  | .either a b, places => a.run length places ||| b.run length places
  | .times body least most, places =>
    let start := iterate (body.run length) least places
    let rounds := match most with
      | none => length + 1
      | some most => min (most - least) (length + 1)
    spread (body.run length) start rounds start

/-- Does the pattern match somewhere in the text? -/
def Expr.isMatch (e : Expr) (text : List Char) : Bool :=
  let everywhere := (1 <<< (text.length + 1)) - 1
  (e.on text).run text.length everywhere != 0

end ParseView.Pattern
