import ParseView.Edit.Chunk
import ParseView.Edit.Search

/-!
# The edit buffer

The source is never changed. It is kept beside a row of chunks that is cut where edits begin and
end, and every edit changes what a chunk stands for or what is inserted beside it. Text inserted to
the left of an offset belongs to the chunk that ends there, text inserted to the right to the chunk
that begins there, which matters once one of them is replaced.

An edit works on the buffer in place, one step after the other, and is refused by the step that
cannot be done. Nothing takes back what the steps before have changed.
-/

namespace ParseView.Edit

structure Buffer where
  source : List Char
  intro : List Char
  /-- In their order, each beginning where the one before it ends. -/
  chunks : List Chunk
  outro : List Char
deriving DecidableEq, Repr

/-- Why an edit is refused. -/
inductive Refusal where
  | outOfBounds (offset length : Nat)
  | notBoundary (offset : Nat)
  | reversed (start stop : Nat)
  | zeroLength (start stop : Nat)
  | replaced (start stop offset : Nat)
  /-- The source would be cut inside a character. The offset was checked before, so that it never
  comes to this. -/
  | torn (offset : Nat)
deriving DecidableEq, Repr

def Refusal.message : Refusal → String
  | .outOfBounds offset length =>
    "Offset " ++ toString offset ++ " is out of bounds (length " ++ toString length ++ ")"
  | .notBoundary offset => "Offset " ++ toString offset ++ " is not on a character boundary"
  | .reversed start stop =>
    "Range start " ++ toString start ++ " is after its end " ++ toString stop
  | .zeroLength start stop =>
    "Cannot overwrite the zero-length range " ++ toString start ++ ".." ++ toString stop
      ++ "; use append_left or prepend_right instead"
  | .replaced start stop offset =>
    "Cannot split " ++ toString start ++ ".." ++ toString stop ++ " at " ++ toString offset
      ++ ": the range was already overwritten"
  | .torn offset => "Cannot cut the source at " ++ toString offset

/-! ## Rows of chunks

A place in a row is searched for by a test that the chunks pass up to there and fail from there
on. -/

/-- The chunk that an offset lies inside, with those before and behind it, if it must be cut to make
the offset an edge. -/
def toCut? (offset : Nat) (chunks : List Chunk) :
    Except Refusal (Option (List Chunk × Chunk × List Chunk)) :=
  let place := partitionPoint (·.stop ≤ offset) chunks
  match chunks.drop place with
  | [] => .ok none
  | chunk :: behind =>
    if !chunk.surrounds offset then .ok none
    else if chunk.isReplaced then .error (.replaced chunk.start chunk.stop offset)
    else .ok (some (chunks.take place, chunk, behind))

/-- A row with an edge at an offset. -/
def cutRow (source : List Char) (offset : Nat) (chunks : List Chunk) :
    Except Refusal (List Chunk) := do
  match ← toCut? offset chunks with
  | none => return chunks
  | some (before, chunk, behind) =>
    match chunk.halves? source offset with
    | none => throw (.torn offset)
    | some (first, second) => return before ++ first :: second :: behind

/-- Changes the chunk with an edge at an offset, if there is one. -/
def changeAt? (edge : Chunk → Nat) (offset : Nat) (f : Chunk → Chunk) (chunks : List Chunk) :
    Option (List Chunk) :=
  let place := partitionPoint (edge · < offset) chunks
  match chunks.drop place with
  | [] => none
  | chunk :: behind =>
    if edge chunk = offset then some (chunks.take place ++ f chunk :: behind) else none

/-- Puts a text in place of a row of chunks: the first one takes it, the others are emptied. -/
def replaceRow (content : List Char) (keepInserts : Bool) : List Chunk → List Chunk
  | [] => []
  | chunk :: rest => chunk.edit content keepInserts :: rest.map (·.edit [] false)

/-- Puts a text in place of the chunks between two edges. -/
def replaceBetween (start stop : Nat) (content : List Char) (keepInserts : Bool)
    (chunks : List Chunk) : List Chunk :=
  let first := partitionPoint (·.start < start) chunks
  let last := partitionPoint (·.stop ≤ stop) chunks
  chunks.take first ++ replaceRow content keepInserts ((chunks.take last).drop first)
    ++ chunks.drop last

/-! ## Buffers -/

namespace Buffer

def ofSource (source : List Char) : Buffer where
  source := source
  intro := []
  chunks := if source.isEmpty then [] else [.ofSlice 0 (Text.utf8Length source) source]
  outro := []

/-- The edited text. -/
def render (buffer : Buffer) : List Char :=
  buffer.intro ++ buffer.chunks.flatMap Chunk.render ++ buffer.outro

/-- Bytes of the edited text. -/
def length (buffer : Buffer) : Nat :=
  Text.utf8Length buffer.intro
    + buffer.chunks.foldl (fun total chunk => total + chunk.length) 0
    + Text.utf8Length buffer.outro

def isEmpty (buffer : Buffer) : Bool := buffer.length == 0

/-- Does the buffer hold anything but its source? -/
def hasChanged (buffer : Buffer) : Bool :=
  !buffer.intro.isEmpty || !buffer.outro.isEmpty || !buffer.chunks.all Chunk.isUntouched

end Buffer

/-! ## Editing -/

/-- An edit at work on a buffer. What it has changed stays changed if it is refused later on. -/
abbrev Editing := EStateM Refusal Buffer

namespace Editing

/-- An offset must lie in the source and between its characters. -/
def checkOffset (offset : Nat) : Editing Unit := do
  let source := (← get).source
  if Text.utf8Length source < offset then
    throw (.outOfBounds offset (Text.utf8Length source))
  else if !Text.isBoundary offset source then throw (.notBoundary offset)

def checkRange (start stop : Nat) : Editing Unit := do
  if stop < start then throw (.reversed start stop)
  else
    checkOffset start
    checkOffset stop

/-- Can the row be cut at an offset? -/
def checkCut (offset : Nat) : Editing Unit := do
  let buffer ← get
  let _ ← ofExcept (toCut? offset buffer.chunks)

/-- Makes an offset an edge. -/
def cut (offset : Nat) : Editing Unit := do
  let buffer ← get
  let chunks ← ofExcept (cutRow buffer.source offset buffer.chunks)
  set { buffer with chunks := chunks }

/-- Makes both ends of a range edges. They are looked at before the first one is cut. -/
def cutRange (start stop : Nat) : Editing Unit := do
  checkCut start
  checkCut stop
  cut start
  cut stop

/-- Changes the text inserted to the left of an offset. -/
def insertLeft (offset : Nat) (f : List Char → List Char) : Editing Unit := do
  checkOffset offset
  cut offset
  modify fun buffer =>
    match changeAt? Chunk.stop offset (fun chunk => { chunk with outro := f chunk.outro })
      buffer.chunks with
    | some chunks => { buffer with chunks := chunks }
    | none => { buffer with intro := f buffer.intro }

/-- Changes the text inserted to the right of an offset. -/
def insertRight (offset : Nat) (f : List Char → List Char) : Editing Unit := do
  checkOffset offset
  cut offset
  modify fun buffer =>
    match changeAt? Chunk.start offset (fun chunk => { chunk with intro := f chunk.intro })
      buffer.chunks with
    | some chunks => { buffer with chunks := chunks }
    | none => { buffer with outro := f buffer.outro }

/-- Puts a text in place of a range that was checked and is not empty. -/
def replace (start stop : Nat) (content : List Char) (keepInserts : Bool) : Editing Unit := do
  cutRange start stop
  modify fun buffer =>
    { buffer with chunks := replaceBetween start stop content keepInserts buffer.chunks }

/-- Puts a text in place of a range, which must not be empty. -/
def overwrite (start stop : Nat) (content : List Char) (keepInserts : Bool) : Editing Unit := do
  checkRange start stop
  if start = stop then throw (.zeroLength start stop)
  else replace start stop content keepInserts

/-- Empties a range. -/
def remove (start stop : Nat) : Editing Unit := do
  checkRange start stop
  if start ≠ stop then replace start stop [] false

end Editing

/-! ## Operations -/

/-- What can be done to a buffer. -/
inductive Operation where
  | append (text : List Char)
  | prepend (text : List Char)
  /-- Behind what was inserted to the left of the offset. -/
  | appendLeft (offset : Nat) (text : List Char)
  | prependLeft (offset : Nat) (text : List Char)
  /-- Behind what was inserted to the right of the offset. -/
  | appendRight (offset : Nat) (text : List Char)
  | prependRight (offset : Nat) (text : List Char)
  /-- Drops what was inserted inside the range and at its edges. -/
  | overwrite (start stop : Nat) (text : List Char)
  /-- Keeps what was inserted to the right of the start of the range. -/
  | update (start stop : Nat) (text : List Char)
  | remove (start stop : Nat)
deriving DecidableEq, Repr

/-- The steps of an operation. -/
def Operation.editing : Operation → Editing Unit
  | .append text => modify fun buffer => { buffer with outro := buffer.outro ++ text }
  | .prepend text => modify fun buffer => { buffer with intro := text ++ buffer.intro }
  | .appendLeft offset text => Editing.insertLeft offset (· ++ text)
  | .prependLeft offset text => Editing.insertLeft offset (text ++ ·)
  | .appendRight offset text => Editing.insertRight offset (· ++ text)
  | .prependRight offset text => Editing.insertRight offset (text ++ ·)
  | .overwrite start stop text => Editing.overwrite start stop text false
  | .update start stop text => Editing.overwrite start stop text true
  | .remove start stop => Editing.remove start stop

namespace Buffer

/-- The answer to an operation: the new buffer or why it is refused. -/
def apply (buffer : Buffer) (operation : Operation) : Except Refusal Buffer :=
  match operation.editing.run buffer with
  | .ok _ next => .ok next
  | .error refusal _ => .error refusal

/-- The buffer as an operation leaves it, done or refused. -/
def perform (buffer : Buffer) (operation : Operation) : Buffer :=
  match operation.editing.run buffer with
  | .ok _ next => next
  | .error _ left => left

/-- The buffer after a history of operations. -/
def run (buffer : Buffer) (operations : List Operation) : Buffer :=
  operations.foldl perform buffer

end Buffer

end ParseView.Edit
