import ParseView.Json.Fault
import ParseView.Number.Layout
import ParseView.Number.Scaled

/-!
# Numbers of a document

A number without point and exponent is kept as a whole number if it fits sixty-four bits, and
everything else as a double.
-/

namespace ParseView.Json

/-- The whole numbers that a document keeps exactly: those of sixty-four bits, with a sign or without
one. -/
structure Whole where
  val : Int
  lower : -0x8000000000000000 ≤ val
  upper : val < 0x10000000000000000
deriving DecidableEq, Repr

inductive Numeral where
  | whole (n : Whole)
  | double (x : Binary64)
deriving DecidableEq, Repr

namespace Numeral

def ofNat (n : Nat) (h : n < 0x10000000000000000 := by omega) : Numeral :=
  .whole ⟨n, by omega, by omega⟩

def ofUInt32 (n : UInt32) : Numeral :=
  ofNat n.toNat (Nat.lt_trans n.toNat_lt (by decide))

/-- The value of a number that is not negative and whole. -/
def natural? : Numeral → Option Nat
  | .whole n => if 0 ≤ n.val then some n.val.toNat else none
  | .double _ => none

def toBinary64 : Numeral → Binary64
  | .whole n => .ofInt n.val
  | .double x => x

def text : Numeral → List Char
  | .whole n => (toString n.val).toList
  | .double x => x.interchangeText

end Numeral

def isDigit (c : Char) : Bool := '0' ≤ c && c ≤ '9'

def digitValue (c : Char) : Nat := c.toNat - '0'.toNat

/-- The written parts of a number, and the text behind it. -/
structure NumberText where
  negative : Bool
  whole : List Char
  fraction : Option (List Char)
  /-- The sign of the exponent and its digits. -/
  power : Option (Bool × List Char)
  rest : List Char

/-- A digit is missing: the end of the text is a fault of its own to who wants the number. -/
def digitMissing : List Char → Stop
  | [] => ⟨.ending .endOfValue, .invalidNumber⟩
  | unread => .same (.seen .invalidNumber unread)

/-- The digits before the point; a leading zero stands alone. -/
def scanWhole : List Char → Except Stop (List Char × List Char)
  | '0' :: rest =>
    match rest with
    | c :: _ => if isDigit c then .error (digitMissing rest) else .ok (['0'], rest)
    | [] => .ok (['0'], rest)
  | s =>
    match s.takeWhile isDigit with
    | [] => .error (digitMissing s)
    | digits => .ok (digits, s.dropWhile isDigit)

/-- At least one digit. -/
def scanDigits (s : List Char) : Except Stop (List Char × List Char) :=
  match s.takeWhile isDigit with
  | [] => .error (digitMissing (s.dropWhile isDigit))
  | digits => .ok (digits, s.dropWhile isDigit)

def scanFraction : List Char → Except Stop (Option (List Char) × List Char)
  | '.' :: rest => do
    let (digits, rest) ← scanDigits rest
    return (some digits, rest)
  | rest => .ok (none, rest)

/-- The digits of an exponent whose sign was read. -/
def scanPowerDigits (down : Bool) (s : List Char) :
    Except Stop (Option (Bool × List Char) × List Char) := do
  let (digits, rest) ← scanDigits s
  return (some (down, digits), rest)

def scanPower : List Char → Except Stop (Option (Bool × List Char) × List Char)
  | c :: rest =>
    if c = 'e' ∨ c = 'E' then
      match rest with
      | '-' :: rest => scanPowerDigits true rest
      | '+' :: rest => scanPowerDigits false rest
      | rest => scanPowerDigits false rest
    else .ok (none, c :: rest)
  | [] => .ok (none, [])

/-- The parts of a number behind its sign. -/
def scanUnsigned (negative : Bool) (s : List Char) : Except Stop NumberText := do
  let (whole, s) ← scanWhole s
  let (fraction, s) ← scanFraction s
  let (power, s) ← scanPower s
  return ⟨negative, whole, fraction, power, s⟩

/-- The parts of the number at the start of the text. -/
def scanNumber : List Char → Except Stop NumberText
  | '-' :: rest => scanUnsigned true rest
  | s => scanUnsigned false s

/-- Sixty-four bits of significand, and the digits that found no room. -/
def significandBound : Nat := 0x10000000000000000

def accumulate : Nat → List Char → Nat × List Char
  | acc, [] => (acc, [])
  | acc, c :: rest =>
    let next := acc * 10 + digitValue c
    if next < significandBound then accumulate next rest else (acc, c :: rest)

/-- How many digits of an exponent are read before it needs more than thirty-one bits, if it does. -/
def overlongPower (acc seen : Nat) : List Char → Option Nat
  | [] => none
  | c :: rest =>
    let next := acc * 10 + digitValue c
    if next < 0x80000000 then overlongPower next (seen + 1) rest else some (seen + 1)

def decimalValue (digits : List Char) : Nat :=
  digits.foldl (fun acc c => acc * 10 + digitValue c) 0

namespace NumberText

/-- A double for digits that are no whole number of sixty-four bits. The digits behind the
sixty-fourth bit are dropped, before the point at the price of a power of ten. -/
def toBinary64 (t : NumberText) : Except Fault Binary64 :=
  let (kept, dropped) := accumulate 0 t.whole
  let fraction := t.fraction.getD []
  let (significand, ignored) := accumulate kept fraction
  let scale : Int := dropped.length - (fraction.length - ignored.length : Nat)
  let outOfRange : Fault := .behind .numberOutOfRange t.rest
  match t.power with
  | none => (Binary64.ofScaled t.negative significand scale).elim (.error outOfRange) .ok
  | some (down, digits) =>
    match overlongPower 0 0 digits with
    | some seen =>
      if significand ≠ 0 ∧ !down then
        .error (.behind .numberOutOfRange (digits.drop seen ++ t.rest))
      else .ok (.ofMagnitudeBits t.negative 0)
    | none =>
      let power : Int := decimalValue digits
      let scale := if down then scale - power else scale + power
      (Binary64.ofScaled t.negative significand scale).elim (.error outOfRange) .ok

/-- What the number means. -/
def value (t : NumberText) : Except Fault Numeral :=
  let double := t.toBinary64.map Numeral.double
  match t.fraction, t.power with
  | none, none =>
    let n := decimalValue t.whole
    if t.negative then
      if h : 0 < n ∧ n ≤ 0x8000000000000000 then .ok (.whole ⟨-n, by omega, by omega⟩) else double
    else if h : n < 0x10000000000000000 then .ok (.ofNat n h) else double
  | _, _ => double

end NumberText

end ParseView.Json
