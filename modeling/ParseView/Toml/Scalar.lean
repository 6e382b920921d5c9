import ParseView.Toml.Text
import ParseView.Toml.Value

/-!
# Numbers, dates and truth values of a settings file

Such a value is a run of characters without blanks, except that a blank may stand between a date and
a time.
-/

namespace ParseView.Toml

open Text (isAsciiDigit)

/-! ## Dates and times -/

/-- A number of exactly `count` digits. -/
def digits? (count : Nat) (s : List Char) : Option (Nat × List Char) :=
  let digits := s.take count
  if digits.length = count ∧ digits.all isAsciiDigit then
    some (digits.foldl (fun n c => n * 10 + (c.toNat - '0'.toNat)) 0, s.drop count)
  else none

def exactly? (c : Char) : List Char → Option (List Char)
  | d :: rest => if c = d then some rest else none
  | [] => none

def isLeapYear (year : Nat) : Bool := year % 4 == 0 && (year % 100 != 0 || year % 400 == 0)

def daysOfMonth (year month : Nat) : Nat :=
  if month = 2 then (if isLeapYear year then 29 else 28)
  else if month ∈ [4, 6, 9, 11] then 30
  else 31

/-- The text behind a date. -/
def date? (s : List Char) : Option (List Char) := do
  let (year, s) ← digits? 4 s
  let (month, s) ← digits? 2 (← exactly? '-' s)
  let (day, s) ← digits? 2 (← exactly? '-' s)
  if 1 ≤ month ∧ month ≤ 12 ∧ 1 ≤ day ∧ day ≤ daysOfMonth year month then some s else none

/-- The text behind a fraction of a second, if there is one. -/
def fraction? : List Char → Option (List Char)
  | '.' :: rest =>
    if (rest.takeWhile isAsciiDigit).isEmpty then none else some (rest.dropWhile isAsciiDigit)
  | s => some s

/-- The text behind a time, whose seconds may be left out. -/
def time? (s : List Char) : Option (List Char) := do
  let (hour, s) ← digits? 2 s
  let (minute, s) ← digits? 2 (← exactly? ':' s)
  if 23 < hour ∨ 59 < minute then none
  match s with
  | ':' :: rest =>
    let (second, s) ← digits? 2 rest
    -- A minute can have a leap second.
    if 60 < second then none else fraction? s
  | s => return s

/-- Is this the distance of a local time from the universal one, or nothing? -/
def isOffset : List Char → Bool
  | [] | ['Z'] | ['z'] => true
  | sign :: rest =>
    (sign == '+' || sign == '-') &&
      match (do
        let (hours, s) ← digits? 2 rest
        let (minutes, s) ← digits? 2 (← exactly? ':' s)
        return (hours, minutes, s)) with
      | some (hours, minutes, []) => hours ≤ 23 && minutes ≤ 59
      | _ => false

def isTime (s : List Char) : Bool := time? s == some []

/-- Is this a date, a time, or a date and a time? -/
def isDateTime (s : List Char) : Bool :=
  match date? s with
  | some [] => true
  | some (c :: rest) => (c == 'T' || c == 't' || c == ' ') && (time? rest).any isOffset
  | none => isTime s

/-! ## Numbers -/

/-- Digits with single underscores between them, without the underscores. -/
def grouped? (radix : Nat) : List Char → Option (List Char)
  | [] => none
  | [c] => (Text.digitValue? radix c).map fun _ => [c]
  | c :: '_' :: rest => do
    let _ ← Text.digitValue? radix c
    return c :: (← grouped? radix rest)
  | c :: rest => do
    let _ ← Text.digitValue? radix c
    return c :: (← grouped? radix rest)

def valueOf (radix : Nat) (digits : List Char) : Nat :=
  digits.foldl (fun n c => n * radix + (Text.digitValue? radix c).getD 0) 0

def splitSign : List Char → Bool × List Char
  | '+' :: rest => (false, rest)
  | '-' :: rest => (true, rest)
  | s => (false, s)

/-- Decimal digits that do not begin with a zero, unless it stands alone. -/
def whole? (s : List Char) : Option Nat := do
  let digits ← grouped? 10 s
  if digits.head? = some '0' ∧ digits ≠ ['0'] then none else some (valueOf 10 digits)

def integer? : List Char → Option Int
  | '0' :: 'x' :: rest => (grouped? 16 rest).map fun digits => valueOf 16 digits
  | '0' :: 'o' :: rest => (grouped? 8 rest).map fun digits => valueOf 8 digits
  | '0' :: 'b' :: rest => (grouped? 2 rest).map fun digits => valueOf 2 digits
  | s =>
    let (negative, s) := splitSign s
    (whole? s).map fun n => if negative then -n else n

/-- Is this an exponent without its letter? -/
def isPower (s : List Char) : Bool := (grouped? 10 (splitSign s).2).isSome

def isExponentMark (c : Char) : Bool := c == 'e' || c == 'E'

def isFloat (s : List Char) : Bool :=
  let s := (splitSign s).2
  if s = ['i', 'n', 'f'] ∨ s = ['n', 'a', 'n'] then true
  else
    let mantissa := s.takeWhile (!isExponentMark ·)
    let power := s.dropWhile (!isExponentMark ·)
    let whole := mantissa.takeWhile (· ≠ '.')
    let fraction := mantissa.dropWhile (· ≠ '.')
    (whole? whole).isSome
      && (fraction.isEmpty || (grouped? 10 fraction.tail).isSome)
      && (power.isEmpty || isPower power.tail)
      && !(fraction.isEmpty && power.isEmpty)

/-! ## Scalars -/

def isScalarChar (c : Char) : Bool :=
  Text.isAsciiAlphanumeric c || c == '+' || c == '-' || c == '_' || c == '.' || c == ':'

/-- The run of characters that may be a value, with a time behind a date and a blank. -/
def scalarText (s : List Char) : List Char × List Char :=
  let run := s.takeWhile isScalarChar
  match s.dropWhile isScalarChar with
  | ' ' :: c :: rest =>
    if date? run = some [] ∧ isAsciiDigit c then
      let time := (c :: rest).takeWhile isScalarChar
      (run ++ ' ' :: time, (c :: rest).dropWhile isScalarChar)
    else (run, ' ' :: c :: rest)
  | rest => (run, rest)

def scalarValue? (s : List Char) : Option Value :=
  if s = ['t', 'r', 'u', 'e'] then some (.boolean true)
  else if s = ['f', 'a', 'l', 's', 'e'] then some (.boolean false)
  else
    match integer? s with
    | some n => some (.integer n)
    | none =>
      if isFloat s then some .float
      else if isDateTime s then some .dateTime
      else none

def scalar? (s : List Char) : Option (Value × List Char) :=
  let (text, rest) := scalarText s
  (scalarValue? text).map fun value => (value, rest)

end ParseView.Toml
