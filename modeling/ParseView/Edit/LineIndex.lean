import ParseView.Edit.Search
import ParseView.Text.Bytes

/-!
# Lines and columns

The places where the lines of a text begin are found once; a byte offset is then put into the last
line that begins at or before it. Columns count UTF-16 units.
-/

namespace ParseView.Edit

/-- A place in a text: line and column, both counted from zero. -/
structure Position where
  line : Nat
  column : Nat
deriving DecidableEq, Repr

/-- The byte offsets behind the line feeds of a text that begins at `base`. -/
def lineStartsFrom (base : Nat) : List Char → List Nat
  | [] => []
  | c :: rest =>
    let next := base + c.utf8Size
    if c = '\n' then next :: lineStartsFrom next rest else lineStartsFrom next rest

/-- The text behind the first `count` bytes; a character that does not fit into them stays. -/
def dropBytes : Nat → List Char → List Char
  | _, [] => []
  | count, c :: rest =>
    if c.utf8Size ≤ count then dropBytes (count - c.utf8Size) rest else c :: rest

/-- The characters that fit into the first `count` bytes. -/
def takeBytes : Nat → List Char → List Char
  | _, [] => []
  | count, c :: rest =>
    if c.utf8Size ≤ count then c :: takeBytes (count - c.utf8Size) rest else []

/-- A text with the starts of its lines. -/
structure LineIndex where
  source : List Char
  starts : List Nat
deriving DecidableEq, Repr

namespace LineIndex

def ofSource (source : List Char) : LineIndex := ⟨source, 0 :: lineStartsFrom 0 source⟩

def lineCount (index : LineIndex) : Nat := index.starts.length

/-- The place of a byte offset; one past the end is the end. -/
def position (index : LineIndex) (offset : Nat) : Position :=
  let before := index.starts.take (partitionPoint (· ≤ offset) index.starts)
  let start := before.getLastD 0
  ⟨before.length - 1, Text.utf16Length (takeBytes (offset - start) (dropBytes start index.source))⟩

end LineIndex

end ParseView.Edit
