import ParseView.Edit.LineIndex
import ParseView.SourceMap.Vlq

/-!
# Mappings

While an edited text is laid out, segments note which place of the source a place of the text comes
from. They are written line by line, every number as its distance to the one before it; columns of
the text start anew in each line.
-/

namespace ParseView.SourceMap

open Edit (Position)

/-- From a column of the edited text to a place in the source. -/
structure Segment where
  column : Nat
  origin : Position
deriving DecidableEq, Repr

/-- The layout so far: the finished lines and the segments of the line at hand, the last ones
first, and the column that was reached. -/
structure Layout where
  finished : List (List Segment)
  current : List Segment
  column : Nat
deriving DecidableEq, Repr

namespace Layout

def empty : Layout := ⟨[], [], 0⟩

/-- Segments of all lines, in their order. -/
def lines (layout : Layout) : List (List Segment) :=
  (layout.current.reverse :: layout.finished).reverse

def addSegment (layout : Layout) (origin : Position) : Layout :=
  { layout with current := ⟨layout.column, origin⟩ :: layout.current }

/-- Lays out a character. -/
def advanceChar (layout : Layout) (c : Char) : Layout :=
  if c = '\n' then ⟨layout.current.reverse :: layout.finished, [], 0⟩
  else { layout with column := layout.column + Text.utf16Size c }

/-- Lays out text that has no place in the source. -/
def advance (layout : Layout) (text : List Char) : Layout := text.foldl advanceChar layout

/-- The place behind a character. -/
def stepOrigin (origin : Position) (c : Char) : Position :=
  if c = '\n' then ⟨origin.line + 1, 0⟩ else ⟨origin.line, origin.column + Text.utf16Size c⟩

/-- Lays out text of the source, with a segment where it begins and at the start of each of its
lines, or at every character. -/
def addSource (everyChar atStart : Bool) (origin : Position) (layout : Layout) :
    List Char → Layout
  | [] => layout
  | c :: rest =>
    let layout := if everyChar || atStart then layout.addSegment origin else layout
    addSource everyChar (c == '\n') (stepOrigin origin c) (layout.advanceChar c) rest

end Layout

/-- A segment behind a column of the text and a place of the source. The zero is the one source. -/
def encodeSegment (column : Nat) (origin : Position) (segment : Segment) : List Char :=
  Vlq.encode (segment.column - column : Int)
    ++ Vlq.encode 0
    ++ Vlq.encode (segment.origin.line - origin.line : Int)
    ++ Vlq.encode (segment.origin.column - origin.column : Int)

/-- Segments of one line behind a column of the text and a place of the source. -/
def encodeSegments (isFirst : Bool) (column : Nat) (origin : Position) :
    List Segment → List Char
  | [] => []
  | segment :: rest =>
    (if isFirst then [] else [','])
      ++ encodeSegment column origin segment
      ++ encodeSegments false segment.column segment.origin rest

/-- The place of the source that the last segment of a line leads to. -/
def lastOrigin (origin : Position) (line : List Segment) : Position :=
  (line.map (·.origin)).getLastD origin

/-- Lines behind a place of the source, with a semicolon before each but the first. -/
def encodeLines (isFirst : Bool) (origin : Position) : List (List Segment) → List Char
  | [] => []
  | line :: rest =>
    (if isFirst then [] else [';'])
      ++ encodeSegments true 0 origin line
      ++ encodeLines false (lastOrigin origin line) rest

/-- The text of all lines. -/
def encodeMappings (lines : List (List Segment)) : List Char := encodeLines true ⟨0, 0⟩ lines

end ParseView.SourceMap
