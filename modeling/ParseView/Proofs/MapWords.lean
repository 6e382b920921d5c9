import Mathlib.Data.List.Basic
import ParseView.Proofs.MapReading
import ParseView.Proofs.VlqWords

/-!
# Mappings are written in machine words

The writer of mappings keeps numbers of 32 bits, and takes their distances in words of 64
bits with a sign. `writeMappings?` tells how it goes through the segments with the counters
that it has: the column of the text starts anew in each line, and the place in the source is
carried on, over lines without segments as well.

Two numbers of 32 bits are less than two to the thirty-second apart, so a distance always
fits into a word, and with its sign into seven digits. So the writer gets through, in as few
rounds as seven for each number, and what it writes is what `encodeMappings` says. As this
reads back as the segments, `written_determines_segments` follows: from the text the
segments are known.
-/

namespace ParseView.SourceMap

open Edit (Position)
open Vlq (word? write?)

/-! ## The writer -/

/-- A segment as it is kept: a column of the text, and a line and a column of the source. -/
structure StoredSegment where
  column : UInt32
  line : UInt32
  originColumn : UInt32
deriving DecidableEq, Repr

namespace StoredSegment

def origin (segment : StoredSegment) : Position :=
  ⟨segment.line.toNat, segment.originColumn.toNat⟩

def segment (stored : StoredSegment) : Segment := ⟨stored.column.toNat, stored.origin⟩

end StoredSegment

/-- A number of 32 bits in a word of 64. -/
def wide (n : UInt32) : Int64 := n.toUInt64.toInt64

/-- The place in the source that distances are taken from. -/
structure Counters where
  line : Int64
  column : Int64
deriving DecidableEq, Repr

def StoredSegment.counters (segment : StoredSegment) : Counters :=
  ⟨wide segment.line, wide segment.originColumn⟩

/-- The distance of a number to the one before it. -/
def writeDistance? (rounds : Nat) (n : UInt32) (before : Int64) : Option (List Char) := do
  let distance ← word? ((wide n).toInt - before.toInt)
  write? rounds distance

def writeSegment? (rounds : Nat) (column : Int64) (counters : Counters)
    (segment : StoredSegment) : Option (List Char) := do
  let columnText ← writeDistance? rounds segment.column column
  let sourceText ← write? rounds 0
  let lineText ← writeDistance? rounds segment.line counters.line
  let originText ← writeDistance? rounds segment.originColumn counters.column
  return columnText ++ sourceText ++ lineText ++ originText

/-- Segments of one line, and the counters behind them. -/
def writeSegments? (rounds : Nat) (isFirst : Bool) (column : Int64) (counters : Counters) :
    List StoredSegment → Option (List Char × Counters)
  | [] => some ([], counters)
  | segment :: rest => do
    let text ← writeSegment? rounds column counters segment
    let (more, counters) ←
      writeSegments? rounds false (wide segment.column) segment.counters rest
    return ((if isFirst then [] else [',']) ++ text ++ more, counters)

def writeLines? (rounds : Nat) (isFirst : Bool) (counters : Counters) :
    List (List StoredSegment) → Option (List Char)
  | [] => some []
  | line :: rest => do
    let (text, counters) ← writeSegments? rounds true 0 counters line
    let more ← writeLines? rounds false counters rest
    return (if isFirst then [] else [';']) ++ text ++ more

/-- The text of all lines, every number of which is written in at most so many rounds. -/
def writeMappings? (rounds : Nat) (lines : List (List StoredSegment)) : Option (List Char) :=
  writeLines? rounds true ⟨0, 0⟩ lines

/-! ## One number -/

theorem toInt_wide (n : UInt32) : (wide n).toInt = n.toNat := by
  have hlt := n.toNat_lt
  have hbits : (wide n).toBitVec.toNat = n.toNat := by
    show n.toUInt64.toBitVec.toNat = n.toNat
    rw [UInt64.toNat_toBitVec, UInt32.toNat_toUInt64]
  exact Vlq.toInt_of_toNat hbits (by omega)

/-- What is kept of the number before: a word that is not less than zero, of 32 bits. -/
def Keeps (word : Int64) (n : Nat) : Prop := word.toInt = n ∧ n < 2 ^ 32

theorem keeps_zero : Keeps 0 0 := ⟨rfl, by decide⟩

theorem keeps_wide (n : UInt32) : Keeps (wide n) n.toNat := ⟨toInt_wide n, n.toNat_lt⟩

variable {rounds : Nat}

/-- With its sign a distance has 33 bits, in seven digits of five. -/
theorem write?_of_small (hrounds : 7 ≤ rounds) {value : Int64}
    (h : value.toInt.natAbs < 2 ^ 32) : write? rounds value = some (Vlq.encode value.toInt) :=
  Vlq.write?_of_lt (k := 6) (by omega) (by omega) hrounds

theorem writeDistance?_eq (hrounds : 7 ≤ rounds) (n : UInt32) {before : Int64} {m : Nat}
    (h : Keeps before m) :
    writeDistance? rounds n before = some (Vlq.encode ((n.toNat : Int) - m)) := by
  have hlt := n.toNat_lt
  obtain ⟨hbefore, hm⟩ := h
  obtain ⟨distance, hdistance, htoInt⟩ :=
    Vlq.word?_eq (n := (n.toNat : Int) - m) (by omega) (by omega)
  rw [writeDistance?, toInt_wide, hbefore, hdistance, ← htoInt]
  exact write?_of_small hrounds (by omega)

/-! ## Segments and lines -/

/-- The counters hold a place in the source. -/
structure Counters.At (counters : Counters) (origin : Position) : Prop where
  line : Keeps counters.line origin.line
  column : Keeps counters.column origin.column

theorem StoredSegment.counters_at (segment : StoredSegment) :
    segment.counters.At segment.origin :=
  ⟨keeps_wide segment.line, keeps_wide segment.originColumn⟩

theorem writeSegment?_eq (hrounds : 7 ≤ rounds) {column : Int64} {n : Nat}
    (hcolumn : Keeps column n) {counters : Counters} {origin : Position}
    (horigin : counters.At origin) (segment : StoredSegment) :
    writeSegment? rounds column counters segment =
      some (encodeSegment n origin segment.segment) := by
  have hzero : write? rounds 0 = some (Vlq.encode 0) := write?_of_small hrounds (by decide)
  rw [writeSegment?, writeDistance?_eq hrounds _ hcolumn, hzero,
    writeDistance?_eq hrounds _ horigin.line, writeDistance?_eq hrounds _ horigin.column]
  rfl

theorem writeSegments?_eq (hrounds : 7 ≤ rounds) (isFirst : Bool) {column : Int64} {n : Nat}
    (hcolumn : Keeps column n) {counters : Counters} {origin : Position}
    (horigin : counters.At origin) (line : List StoredSegment) :
    ∃ behind, writeSegments? rounds isFirst column counters line =
        some (encodeSegments isFirst n origin (line.map StoredSegment.segment), behind) ∧
      behind.At (lastOrigin origin (line.map StoredSegment.segment)) := by
  induction line generalizing isFirst column n counters origin with
  | nil => exact ⟨counters, rfl, horigin⟩
  | cons segment rest ih =>
      obtain ⟨behind, hrest, hbehind⟩ :=
        ih false (keeps_wide segment.column) segment.counters_at
      refine ⟨behind, ?_, ?_⟩
      · rw [writeSegments?, writeSegment?_eq hrounds hcolumn horigin, hrest]
        rfl
      · rw [List.map_cons, lastOrigin_cons]
        exact hbehind

theorem writeLines?_eq (hrounds : 7 ≤ rounds) (isFirst : Bool) {counters : Counters}
    {origin : Position} (horigin : counters.At origin) (lines : List (List StoredSegment)) :
    writeLines? rounds isFirst counters lines =
      some (encodeLines isFirst origin (lines.map (·.map StoredSegment.segment))) := by
  induction lines generalizing isFirst counters origin with
  | nil => rfl
  | cons line rest ih =>
      obtain ⟨behind, hline, hbehind⟩ :=
        writeSegments?_eq hrounds true keeps_zero horigin line
      simp only [writeLines?, hline, Option.bind_eq_bind, Option.bind_some, ih false hbehind]
      rfl

/-- The writer gets through in words, and writes what is to be written. -/
theorem writeMappings?_eq (hrounds : 7 ≤ rounds) (lines : List (List StoredSegment)) :
    writeMappings? rounds lines =
      some (encodeMappings (lines.map (·.map StoredSegment.segment))) :=
  writeLines?_eq hrounds true ⟨keeps_zero, keeps_zero⟩ lines

/-! ## From the text to the segments -/

/-- What a segment reads as. -/
def StoredSegment.entry (segment : StoredSegment) : Entry :=
  ⟨segment.column.toNat, some ⟨0, segment.origin, none⟩⟩

theorem StoredSegment.entry_injective {segment other : StoredSegment}
    (h : segment.entry = other.entry) : segment = other := by
  cases segment
  cases other
  simp only [entry, origin, Entry.mk.injEq, Option.some.injEq, Target.mk.injEq,
    Position.mk.injEq, UInt32.toNat_inj, and_true, true_and] at h
  obtain ⟨hcolumn, hline, horigin⟩ := h
  rw [hcolumn, hline, horigin]

/-- From the text of some lines, at least one, the segments are known. The writer gets
through without leaving the words, in seven rounds for each number or more, and writes what
`encodeMappings` says. By the rules of the format this reads back as the segments that were
given, line by line, each with four numbers and the source that there is. So no other lines
have the same text. -/
theorem written_determines_segments {lines : List (List StoredSegment)} (hlines : lines ≠ [])
    {rounds : Nat} (hrounds : 7 ≤ rounds) :
    ∃ text, writeMappings? rounds lines = some text ∧
      encodeMappings (lines.map (·.map StoredSegment.segment)) = text ∧
      readMappings? text = some (lines.map (·.map StoredSegment.entry)) ∧
      ∀ other, other ≠ [] → writeMappings? rounds other = some text → other = lines := by
  have hread (lines : List (List StoredSegment)) (h : lines ≠ []) :
      readMappings? (encodeMappings (lines.map (·.map StoredSegment.segment))) =
        some (lines.map (·.map StoredSegment.entry)) := by
    rw [readMappings?_encodeMappings (by simpa using h), List.map_map]
    refine congrArg some (List.map_congr_left fun line _ => ?_)
    exact List.map_map
  refine ⟨_, writeMappings?_eq hrounds lines, rfl, hread lines hlines, ?_⟩
  intro other hother hsame
  rw [writeMappings?_eq hrounds other] at hsame
  have hentries := hread other hother
  rw [Option.some.inj hsame, hread lines hlines] at hentries
  have hinj : Function.Injective (List.map StoredSegment.entry) :=
    List.map_injective_iff.mpr fun _ _ => StoredSegment.entry_injective
  exact (List.map_injective_iff.mpr hinj (Option.some.inj hentries)).symm

/-- Distances as far as they go in both directions, over a line without segments. -/
theorem written_determines_segments_far_apart :
    ∃ text, writeMappings? 7 [[⟨0, 0xFFFFFFFF, 0⟩], [],
        [⟨0xFFFFFFFF, 0, 0xFFFFFFFF⟩, ⟨0, 3, 5⟩]] = some text ∧
      readMappings? text = some [[⟨0, some ⟨0, ⟨0xFFFFFFFF, 0⟩, none⟩⟩], [],
        [⟨0xFFFFFFFF, some ⟨0, ⟨0, 0xFFFFFFFF⟩, none⟩⟩, ⟨0, some ⟨0, ⟨3, 5⟩, none⟩⟩]] := by
  have hlines : ([[⟨0, 0xFFFFFFFF, 0⟩], [], [⟨0xFFFFFFFF, 0, 0xFFFFFFFF⟩, ⟨0, 3, 5⟩]] :
      List (List StoredSegment)) ≠ [] := List.cons_ne_nil _ _
  obtain ⟨text, hwritten, -, hread, -⟩ := written_determines_segments hlines (Nat.le_refl 7)
  exact ⟨text, hwritten, hread⟩

/-- With six rounds for each number such a distance does not end. -/
example : writeMappings? 6 [[⟨0xFFFFFFFF, 0, 0⟩]] = none := by
  decide +kernel

end ParseView.SourceMap
