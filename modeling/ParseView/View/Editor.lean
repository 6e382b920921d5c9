import ParseView.SourceMap.Export

/-!
# Editors

Everyone who edits a source has a handle on its buffer, and copies of a handle lead to the same
buffer. A map is asked for with options and comes in three forms. Who asked for it holds the handle
and the options only; the buffer is looked at when one of the forms is read.
-/

namespace ParseView

open Edit (Buffer Operation)

variable {n : Nat}

/-- The buffers there are, which handles lead to. -/
abbrev Buffers (n : Nat) := Vector Buffer n

/-- A handle on a buffer. -/
structure Editor (n : Nat) where
  cell : Fin n
deriving DecidableEq, Repr

/-- A map that was asked for. -/
structure MapExport (n : Nat) where
  editor : Editor n
  options : SourceMap.Options
deriving DecidableEq, Repr

namespace Editor

/-- The buffer as it is. -/
def buffer (editor : Editor n) (buffers : Buffers n) : Buffer := buffers[editor.cell]

/-- The edited text. -/
def text (editor : Editor n) (buffers : Buffers n) : String :=
  String.ofList (editor.buffer buffers).render

/-- Edits the buffer, for everyone who has a handle on it. -/
def edit (editor : Editor n) (operation : Operation) (buffers : Buffers n) :
    Except Edit.Refusal Unit × Buffers n :=
  let buffer := editor.buffer buffers
  ((buffer.apply operation).map fun _ => (),
    buffers.set editor.cell (buffer.perform operation))

def generateMap (editor : Editor n) (options : SourceMap.Options) : MapExport n :=
  ⟨editor, options⟩

end Editor

/-- The buffers after edits through any of the handles. -/
def Buffers.run (buffers : Buffers n) (edits : List (Editor n × Operation)) : Buffers n :=
  edits.foldl (fun buffers edit => (edit.1.edit edit.2 buffers).2) buffers

namespace MapExport

def toMap (request : MapExport n) (buffers : Buffers n) : SourceMap :=
  SourceMap.ofBuffer (request.editor.buffer buffers) request.options

def toJson (request : MapExport n) (buffers : Buffers n) : String :=
  (SourceMap.ofBuffer (request.editor.buffer buffers) request.options).text

def toUrl (request : MapExport n) (buffers : Buffers n) : String :=
  (SourceMap.ofBuffer (request.editor.buffer buffers) request.options).address

end MapExport

end ParseView
