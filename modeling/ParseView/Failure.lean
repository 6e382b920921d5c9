import ParseView.Json.Limit
import ParseView.Tree.Decode

/-!
# Failures

Everything that can go wrong on the way from a program text to its views is one of these. A failure
is recoverable if the caller can go on without what failed: a tree that does not decode, or an edit
that is refused, leaves everything else as it was.
-/

namespace ParseView

/-- What a failure is about. -/
inductive Failure.Area where
  | decode
  | options
  | config
  | edit
  | sourceMap
  | io
deriving DecidableEq, Repr

inductive Failure where
  | decode (error : Tree.DecodeError)
  | options (message : String)
  | config (message : String)
  | edit (message : String)
  | sourceMap (message : String)
  | io (path reason : String)
deriving DecidableEq, Repr

namespace Failure

def area : Failure → Area
  | .decode _ => .decode
  | .options _ => .options
  | .config _ => .config
  | .edit _ => .edit
  | .sourceMap _ => .sourceMap
  | .io _ _ => .io

def Area.isRecoverable : Area → Bool
  | .decode | .edit => true
  | .options | .config | .sourceMap | .io => false

def isRecoverable (failure : Failure) : Bool := failure.area.isRecoverable

def message : Failure → String
  | .decode error => "Decode error: " ++ error.message
  | .options message => "Invalid parse options: " ++ message
  | .config message => "Configuration error: " ++ message
  | .edit message => "Edit error: " ++ message
  | .sourceMap message => "Source map error: " ++ message
  | .io path reason => "IO error for path '" ++ path ++ "': " ++ reason

/-- The failure of a text that is no document at all; nothing if it is one. -/
def ofText? (text : String) : Option Failure :=
  (Json.faultOf? text).map fun fault => .decode (.fault fault.cause (fault.place.position text))

end Failure

end ParseView
