import ParseView.Pattern.CharSet

/-!
# Sets of characters as intervals

The same sets as sorted disjoint intervals of codes, surrogates left out, and the byte sequences
that their UTF-8 forms fall into. They are needed only to tell how large a compiled class is.
-/

namespace ParseView.Pattern

/-- A closed interval of codes. -/
abbrev Interval := Nat × Nat

def sortIntervals (intervals : List Interval) : List Interval :=
  intervals.mergeSort fun a b => a.1 ≤ b.1

/-- Sorted disjoint intervals for any intervals; those that touch are joined. -/
def normalizeIntervals (intervals : List Interval) : List Interval :=
  let step (done : List Interval) (next : Interval) : List Interval :=
    match done with
    | (low, high) :: rest =>
      if next.1 ≤ high + 1 then (low, max high next.2) :: rest else next :: (low, high) :: rest
    | [] => [next]
  ((sortIntervals intervals).foldl step []).reverse

/-- The codes from `start` on that no interval covers. -/
def gapsFrom (start : Nat) : List Interval → List Interval
  | [] => if start ≤ 0x10FFFF then [(start, 0x10FFFF)] else []
  | (low, high) :: rest =>
    if start < low then (start, low - 1) :: gapsFrom (high + 1) rest else gapsFrom (high + 1) rest

/-- An interval without the surrogates. -/
def dropSurrogates (interval : Interval) : List Interval :=
  let (low, high) := interval
  [(low, min high 0xD7FF), (max low 0xE000, high)].filter fun (a, b) => a ≤ b

def inIntervals (intervals : List Interval) (code : Nat) : Bool :=
  intervals.any fun (low, high) => low ≤ code && code ≤ high

/-- The codes of a run of case pairs. -/
def runCodes (run : Text.CaseRun) : List Nat :=
  (List.range ((run.last - run.first) / run.step + 1)).map fun k => run.first + k * run.step

/-- Every code that differs from another one by case, with the least code of its class. -/
def casePairs : List (Nat × Nat) :=
  Text.foldRuns.flatMap fun run => (runCodes run).map fun code => (code, run.image code)

/-- Codes whose case class meets the intervals. -/
def foldIntervals (intervals : List Interval) : List Interval :=
  let least := casePairs.filterMap fun (code, least) =>
    if inIntervals intervals code || inIntervals intervals least then some least else none
  let added := casePairs.filterMap fun (code, least') =>
    if least.contains least' then some (code, code) else none
  normalizeIntervals (intervals ++ added ++ least.map fun code => (code, code))

def CharSet.intervals : CharSet → List Interval
  | .empty => []
  | .range low high => if low ≤ high then dropSurrogates (low, high) else []
  | .union a b => normalizeIntervals (a.intervals ++ b.intervals)
  | .complement s => (gapsFrom 0 s.intervals).flatMap dropSurrogates
  | .folded s => foldIntervals s.intervals
  | .foldedAscii s =>
    let within := s.intervals
    let letters := (List.range 26).flatMap fun k => [0x41 + k, 0x61 + k]
    let added := letters.filter fun code => inIntervals within (swapAsciiCase code)
    normalizeIntervals (within ++ added.map fun code => (code, code))

/-! ## Byte sequences -/

/-- Ranges of bytes, one for each byte of a character. -/
abbrev ByteRanges := List (Nat × Nat)

def utf8Bytes (code : Nat) : List Nat :=
  if code < 0x80 then [code]
  else if code < 0x800 then [0xC0 + code / 64, 0x80 + code % 64]
  else if code < 0x10000 then [0xE0 + code / 4096, 0x80 + code / 64 % 64, 0x80 + code % 64]
  else [0xF0 + code / 262144, 0x80 + code / 4096 % 64, 0x80 + code / 64 % 64, 0x80 + code % 64]

/-- Where an interval has to be cut so that its parts are products of byte ranges: first between
forms of different length, then where only the last bytes run through all their values. -/
def cutPoint? (low high : Nat) : Option Nat :=
  let lengths := [0x7F, 0x7FF, 0xFFFF].find? fun last => low ≤ last && last < high
  match lengths with
  | some last => some last
  | none =>
    if high < 0x80 then none
    else [64, 4096, 262144].findSome? fun block =>
      if low / block ≠ high / block then
        if low % block ≠ 0 then some (low / block * block + block - 1)
        else if high % block ≠ block - 1 then some (high / block * block - 1)
        else none
      else none

/-- The byte sequences of an interval. Each cut is between its ends. -/
def byteSequences (fuel : Nat) (low high : Nat) : List ByteRanges :=
  match fuel with
  | 0 => []
  | fuel + 1 =>
    match cutPoint? low high with
    | some last => byteSequences fuel low last ++ byteSequences fuel (last + 1) high
    | none => [(utf8Bytes low).zip (utf8Bytes high)]

/-- The byte sequences of sorted disjoint intervals. -/
def sequencesOf (intervals : List Interval) : List ByteRanges :=
  intervals.flatMap fun (low, high) => byteSequences 32 low high

end ParseView.Pattern
