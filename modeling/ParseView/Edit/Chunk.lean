import ParseView.Text.Bytes

/-!
# Chunks

A chunk is a range of the source together with what became of it: the text that stands in its place
and the text inserted on either side.
-/

namespace ParseView.Edit

structure Chunk where
  start : Nat
  stop : Nat
  /-- What stands in the place of the range. -/
  content : List Char
  intro : List Char
  outro : List Char
  isEdited : Bool
deriving DecidableEq, Repr

namespace Chunk

/-- A range of the source that stands for itself. -/
def ofSlice (start stop : Nat) (content : List Char) : Chunk :=
  ⟨start, stop, content, [], [], false⟩

/-- Does an offset lie between the ends of the range, on neither of them? -/
def surrounds (chunk : Chunk) (offset : Nat) : Bool := chunk.start < offset && offset < chunk.stop

def render (chunk : Chunk) : List Char := chunk.intro ++ chunk.content ++ chunk.outro

/-- Bytes of what it renders. -/
def length (chunk : Chunk) : Nat :=
  Text.utf8Length chunk.intro + Text.utf8Length chunk.content + Text.utf8Length chunk.outro

/-- Was something other than nothing put in the place of the range? Such a chunk cannot be cut. -/
def isReplaced (chunk : Chunk) : Bool := chunk.isEdited && !chunk.content.isEmpty

/-- Puts a text in the place of the range, keeping or dropping what was inserted around it. -/
def edit (chunk : Chunk) (content : List Char) (keepInserts : Bool) : Chunk :=
  if keepInserts then { chunk with content := content, isEdited := true }
  else { chunk with content := content, intro := [], outro := [], isEdited := true }

/-- The two halves of a chunk that is cut, if the source can be cut there. What was inserted before
it stays with the first half, what was inserted behind it goes to the second. Both halves of a
removed chunk are removed, and the second one starts afresh: what was inserted behind it is gone. -/
def halves? (source : List Char) (offset : Nat) (chunk : Chunk) : Option (Chunk × Chunk) := do
  let behind ← Text.slice? offset chunk.stop source
  let second := { ofSlice offset chunk.stop behind with outro := chunk.outro }
  let first := { chunk with stop := offset, outro := [] }
  if chunk.isEdited then
    return ({ first with content := [] }, second.edit [] false)
  else
    let before ← Text.slice? chunk.start offset source
    return ({ first with content := before }, second)

/-- Has nothing happened to it? -/
def isUntouched (chunk : Chunk) : Bool :=
  !chunk.isEdited && chunk.intro.isEmpty && chunk.outro.isEmpty

end Chunk

end ParseView.Edit
