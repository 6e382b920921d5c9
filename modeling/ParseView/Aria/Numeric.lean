import ParseView.Text.CharClass

/-!
# Texts that are numbers

A text is numeric if scripts would convert it to a number: it may be empty, a whole number of
another radix, infinite, or a decimal literal with a sign. Blanks around it do not matter.
-/

namespace ParseView.Aria

open Text (isAsciiDigit)

def dropSign : List Char → List Char
  | '+' :: rest | '-' :: rest => rest
  | s => s

/-- At least one digit and nothing else. -/
def isDigits (radix : Nat) (s : List Char) : Bool :=
  !s.isEmpty && s.all fun c => (Text.digitValue? radix c).isSome

/-- Nothing, or an exponent. -/
def isExponent : List Char → Bool
  | [] => true
  | c :: rest => (c == 'e' || c == 'E') && isDigits 10 (dropSign rest)

/-- A decimal literal without sign: digits with an optional point, then an optional exponent. -/
def isDecimal (s : List Char) : Bool :=
  let whole := s.takeWhile isAsciiDigit
  match s.dropWhile isAsciiDigit with
  | '.' :: rest =>
    !(whole.isEmpty && (rest.takeWhile isAsciiDigit).isEmpty)
      && isExponent (rest.dropWhile isAsciiDigit)
  | rest => !whole.isEmpty && isExponent rest

def infinityText : List Char := ['I', 'n', 'f', 'i', 'n', 'i', 't', 'y']

/-- The words for infinity and for what is no number, as the reader of floating-point numbers
takes them in any case. -/
def floatWords : List (List Char) :=
  [['i', 'n', 'f'], ['i', 'n', 'f', 'i', 'n', 'i', 't', 'y'], ['n', 'a', 'n']]

/-- Is there a floating-point number to be read? -/
def isFloatText (s : List Char) : Bool :=
  isDecimal (dropSign s) || floatWords.contains ((dropSign s).map Char.toLower)

/-- The characters of decimal literals. No word is made of them. -/
def isFloatChar (c : Char) : Bool := isAsciiDigit c || ['.', 'e', 'E', '+', '-'].contains c

/-- Does a text without blanks around it convert to a number? -/
def isNumericText : List Char → Bool
  | [] => true
  | '0' :: 'x' :: digits | '0' :: 'X' :: digits => isDigits 16 digits
  | '0' :: 'o' :: digits | '0' :: 'O' :: digits => isDigits 8 digits
  | '0' :: 'b' :: digits | '0' :: 'B' :: digits => isDigits 2 digits
  | s => dropSign s == infinityText || ((dropSign s).all isFloatChar && isFloatText s)

def isNumeric (s : List Char) : Bool := isNumericText (Text.trimBy Text.isWhiteSpace s)

end ParseView.Aria
