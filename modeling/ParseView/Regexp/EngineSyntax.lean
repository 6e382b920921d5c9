import ParseView.Regexp.Token

/-!
# Patterns in the syntax of the engine

A literal's pattern is written anew for an engine whose shorthand classes and word boundaries know
all of Unicode, whose dot stops at line feeds only, and whose classes have set operators. Each token
has its text: shorthand classes are written out, the word boundary is marked as ASCII, the dot
becomes a class, and inside classes everything that could be an operator is escaped.
-/

namespace ParseView.Regexp

/-- A code in hexadecimal between braces. -/
def hexText (code : Nat) : List Char :=
  '\\' :: 'x' :: '{' :: ((Nat.toDigits 16 code).map Char.toUpper ++ ['}'])

/-- A character that stands for itself wherever it is put. -/
def charText (c : Char) : List Char :=
  if Text.isAsciiPunctuation c ∧ c ≠ '<' ∧ c ≠ '>' then ['\\', c]
  else if Text.isControl c ∨ Text.isWhiteSpace c then hexText c.toNat
  else [c]

def rangeText (low high : Nat) : List Char := hexText low ++ '-' :: hexText high

/-- The members of a shorthand class, as they stand between brackets. -/
def ShortClass.text : ShortClass → List Char
  | .digit => ['0', '-', '9']
  | .word => ['0', '-', '9', 'A', '-', 'Z', 'a', '-', 'z', '_']
  | .space =>
    ['\\', 't', '\\', 'n', '\\', 'v', '\\', 'f', '\\', 'r', ' '] ++ hexText 0xA0 ++ hexText 0x1680
      ++ rangeText 0x2000 0x200A ++ hexText 0x2028 ++ hexText 0x2029 ++ hexText 0x202F
      ++ hexText 0x205F ++ hexText 0x3000 ++ hexText 0xFEFF

def lineTerminatorText : List Char := ['\\', 'n', '\\', 'r'] ++ hexText 0x2028 ++ hexText 0x2029

def bracketText (negated : Bool) (body : List Char) : List Char :=
  '[' :: ((if negated then ['^'] else []) ++ body ++ [']'])

/-- Inside a class a negated set is a class of its own, which joins it. -/
def Member.text : Member → List Char
  | .char c => charText c
  | .range low high => charText low ++ '-' :: charText high
  | .set members false => members.text
  | .set members true => bracketText true members.text

/-- The range of all characters. -/
def everythingText : List Char := ['\\', 'x', '0', '0', '-'] ++ hexText 0x10FFFF

def Token.text : Token → List Char
  | .plain c => [c]
  | .escape (.char c) => charText c
  | .escape (.set members negated) => bracketText negated members.text
  | .escape (.boundary false) => ['(', '?', '-', 'u', ':', '\\', 'b', ')']
  | .escape (.boundary true) => ['(', '?', '-', 'u', ':', '\\', 'B', ')']
  | .dot => bracketText true lineTerminatorText
  | .bracket negated [] => bracketText (!negated) everythingText
  | .bracket negated members => bracketText negated (members.flatMap Member.text)

/-- The pattern as the engine reads it, unless it cannot be carried over. -/
def enginePattern? (flags : Flags) (pattern : List Char) : Option (List Char) :=
  (scanTokens flags pattern).map (·.flatMap Token.text)

end ParseView.Regexp
