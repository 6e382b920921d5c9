import ParseView.Text.LetterTable

/-!
# Classes of characters
-/

namespace ParseView.Text

/-- Membership in a class given by the codes at which it changes: an odd number of changes lies at
or before each member. -/
def inChanges (changes : List Nat) (code : Nat) : Bool :=
  (changes.takeWhile (· ≤ code)).length % 2 == 1

/-- White space of Unicode. -/
def isWhiteSpace (c : Char) : Bool :=
  let code := c.toNat
  (0x09 ≤ code && code ≤ 0x0D) || code == 0x20 || code == 0x85 || code == 0xA0 || code == 0x1680
    || (0x2000 ≤ code && code ≤ 0x200A) || code == 0x2028 || code == 0x2029 || code == 0x202F
    || code == 0x205F || code == 0x3000

def isControl (c : Char) : Bool := c.toNat < 0x20 || (0x7F ≤ c.toNat && c.toNat < 0xA0)

def isAsciiDigit (c : Char) : Bool := '0' ≤ c && c ≤ '9'

def isAsciiLetter (c : Char) : Bool := ('a' ≤ c && c ≤ 'z') || ('A' ≤ c && c ≤ 'Z')

def isAsciiAlphanumeric (c : Char) : Bool := isAsciiDigit c || isAsciiLetter c

def isHexDigit (c : Char) : Bool :=
  isAsciiDigit c || ('a' ≤ c && c ≤ 'f') || ('A' ≤ c && c ≤ 'F')

/-- Visible ASCII characters that are neither letters nor digits. -/
def isAsciiPunctuation (c : Char) : Bool :=
  0x21 ≤ c.toNat && c.toNat ≤ 0x7E && !isAsciiAlphanumeric c

def isAlphabetic (c : Char) : Bool :=
  if c.toNat < 0x80 then isAsciiLetter c else inChanges alphabeticChanges c.toNat

def isNumeric (c : Char) : Bool :=
  if c.toNat < 0x80 then isAsciiDigit c else inChanges numericChanges c.toNat

def isCased (c : Char) : Bool := inChanges casedChanges c.toNat

def isCaseIgnorable (c : Char) : Bool := inChanges caseIgnorableChanges c.toNat

/-- The value of a digit, up to sixteen. -/
def digitValue? (radix : Nat) (c : Char) : Option Nat :=
  let value :=
    if isAsciiDigit c then c.toNat - '0'.toNat
    else if 'a' ≤ c ∧ c ≤ 'f' then c.toNat - 'a'.toNat + 10
    else if 'A' ≤ c ∧ c ≤ 'F' then c.toNat - 'A'.toNat + 10
    else radix
  if value < radix then some value else none

/-- The text without what `p` holds of at either end. -/
def trimBy (p : Char → Bool) (s : List Char) : List Char :=
  ((s.dropWhile p).reverse.dropWhile p).reverse

end ParseView.Text
