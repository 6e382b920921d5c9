/-!
# Base64

Three bytes are written as four characters of six bits each. The last group is filled up with
equals signs.
-/

namespace ParseView.Base64

/-- The character of six bits. -/
def digit (n : Nat) : Char :=
  if n < 26 then Char.ofNat ('A'.toNat + n)
  else if n < 52 then Char.ofNat ('a'.toNat + (n - 26))
  else if n < 62 then Char.ofNat ('0'.toNat + (n - 52))
  else if n = 62 then '+'
  else '/'

/-- The six bits of a character. -/
def digitValue? (c : Char) : Option Nat :=
  if 'A' ≤ c ∧ c ≤ 'Z' then some (c.toNat - 'A'.toNat)
  else if 'a' ≤ c ∧ c ≤ 'z' then some (c.toNat - 'a'.toNat + 26)
  else if '0' ≤ c ∧ c ≤ '9' then some (c.toNat - '0'.toNat + 52)
  else if c = '+' then some 62
  else if c = '/' then some 63
  else none

def encode : List UInt8 → List Char
  | [] => []
  | [a] =>
    let bits := a.toNat * 0x10
    [digit (bits / 0x40), digit (bits % 0x40), '=', '=']
  | [a, b] =>
    let bits := (a.toNat * 0x100 + b.toNat) * 0x4
    [digit (bits / 0x1000), digit (bits / 0x40 % 0x40), digit (bits % 0x40), '=']
  | a :: b :: c :: rest =>
    let bits := (a.toNat * 0x100 + b.toNat) * 0x100 + c.toNat
    digit (bits / 0x40000) :: digit (bits / 0x1000 % 0x40) :: digit (bits / 0x40 % 0x40)
      :: digit (bits % 0x40) :: encode rest

/-- The bytes of a text in groups of four characters. -/
def decode? : List Char → Option (List UInt8)
  | [] => some []
  | [a, b, '=', '='] => do
    let bits := (← digitValue? a) * 0x40 + (← digitValue? b)
    if bits % 0x10 = 0 then return [UInt8.ofNat (bits / 0x10)] else none
  | [a, b, c, '='] => do
    let bits := ((← digitValue? a) * 0x40 + (← digitValue? b)) * 0x40 + (← digitValue? c)
    if bits % 0x4 = 0 then
      return [UInt8.ofNat (bits / 0x400), UInt8.ofNat (bits / 0x4)]
    else none
  | a :: b :: c :: d :: rest => do
    let bits := (((← digitValue? a) * 0x40 + (← digitValue? b)) * 0x40 + (← digitValue? c)) * 0x40
      + (← digitValue? d)
    let more ← decode? rest
    return UInt8.ofNat (bits / 0x10000) :: UInt8.ofNat (bits / 0x100) :: UInt8.ofNat bits :: more
  | _ => none

end ParseView.Base64
