import ParseView.Failure
import ParseView.View.Editor
import ParseView.View.Engine

/-!
# Views of a parse result

The parts of a result are handed out one by one. Each has a slot that is filled when the part is
first read and then keeps it. The tree is decoded when it is first read and not before; a tree that
does not decode leaves its slot empty. The slot for edits keeps a handle and no buffer: what is read
or edited through it is the one buffer of the raw result.
-/

namespace ParseView

namespace RawResult

/-- The buffers that handles lead to: there is one. -/
def buffers (raw : RawResult) : Buffers 1 := #v[raw.buffer]

/-- A handle on the buffer. -/
def editor (_ : RawResult) : Editor 1 := ⟨0⟩

end RawResult

structure ParseResult where
  raw : RawResult
  program : Option Tree.Node := none
  moduleRecord : Option ModuleRecord := none
  comments : Option (List Comment) := none
  errors : Option (List Diagnostic) := none
  editor : Option (Editor 1) := none
deriving Repr

namespace ParseResult

def wrap (raw : RawResult) : ParseResult := { raw := raw }

/-- The raw result, with every edit that was made. -/
def toRaw (result : ParseResult) : RawResult := result.raw

/-- Has the tree been decoded? -/
def isProgramRealized (result : ParseResult) : Bool := result.program.isSome

/-- The tree, and the result that keeps it. -/
def readProgram (result : ParseResult) : Except Tree.DecodeError Tree.Node × ParseResult :=
  match result.program with
  | some node => (.ok node, result)
  | none =>
    match Tree.decode result.raw.program with
    | .ok node => (.ok node, { result with program := some node })
    | .error error => (.error error, result)

def readModule (result : ParseResult) : ModuleRecord × ParseResult :=
  let record := result.moduleRecord.getD result.raw.moduleRecord
  (record, { result with moduleRecord := some record })

def readComments (result : ParseResult) : List Comment × ParseResult :=
  let comments := result.comments.getD result.raw.comments
  (comments, { result with comments := some comments })

def readErrors (result : ParseResult) : List Diagnostic × ParseResult :=
  let errors := result.errors.getD result.raw.errors
  (errors, { result with errors := some errors })

/-- Was the source parsed without an error? -/
def readIsValid (result : ParseResult) : Bool × ParseResult :=
  let (errors, result) := result.readErrors
  (!errors.any Diagnostic.isError, result)

/-- The handle on the buffer, and the result that keeps it. -/
def readEditor (result : ParseResult) : Editor 1 × ParseResult :=
  let editor := result.editor.getD result.raw.editor
  (editor, { result with editor := some editor })

/-- The edited source. -/
def readText (result : ParseResult) : String × ParseResult :=
  let (editor, result) := result.readEditor
  (editor.text result.raw.buffers, result)

/-- A map of the edited source as it is now. -/
def readMap (result : ParseResult) (options : SourceMap.Options) : SourceMap × ParseResult :=
  let (editor, result) := result.readEditor
  ((editor.generateMap options).toMap result.raw.buffers, result)

/-- Edits the source, for everyone who sees it. -/
def edit (result : ParseResult) (operation : Edit.Operation) :
    Except Edit.Refusal Unit × ParseResult :=
  let (editor, result) := result.readEditor
  let (outcome, buffers) := editor.edit operation result.raw.buffers
  (outcome, { result with raw := { result.raw with buffer := buffers[0] } })

end ParseResult

namespace Engine

variable {ε : Type}

/-- Parses and wraps what was found. -/
def view (engine : Engine ε) (options : ParseOptions) : Except ε ParseResult :=
  (engine.parse options).map .wrap

/-- Parses and drops what was found. -/
def run (engine : Engine ε) (options : ParseOptions) : Except ε Unit :=
  (engine.parse options).map fun _ => ()

end Engine

end ParseView
