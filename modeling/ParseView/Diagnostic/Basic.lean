/-!
# Comments and diagnostics

What a parser reports besides the tree. Errors in the source are data and travel with everything
else that was found.
-/

namespace ParseView

inductive CommentKind where
  | line
  | block
deriving DecidableEq, Repr

structure Comment where
  kind : CommentKind
  /-- The text without its delimiters. -/
  value : String
  start : UInt32
  stop : UInt32
deriving DecidableEq, Repr

namespace Comment

def line (value : String) (start stop : UInt32) : Comment := ⟨.line, value, start, stop⟩

def block (value : String) (start stop : UInt32) : Comment := ⟨.block, value, start, stop⟩

/-- Does it document what follows? Such comments are blocks that begin with two stars. -/
def isDocumentation (comment : Comment) : Bool :=
  comment.kind == .block && comment.value.toList.head? == some '*'

end Comment

inductive Severity where
  | error
  | warning
  | advice
deriving DecidableEq, Repr

def Severity.text : Severity → String
  | .error => "error"
  | .warning => "warning"
  | .advice => "advice"

/-- A place that a diagnostic points to. -/
structure Label where
  message : Option String
  start : UInt32
  stop : UInt32
deriving DecidableEq, Repr

structure Diagnostic where
  severity : Severity
  message : String
  labels : List Label := []
  help : Option String := none
  /-- The name of the rule that was broken. -/
  code : Option String := none
deriving DecidableEq, Repr

namespace Diagnostic

/-- Adds a label behind the others. -/
def withLabel (diagnostic : Diagnostic) (label : Label) : Diagnostic :=
  { diagnostic with labels := diagnostic.labels ++ [label] }

def withHelp (diagnostic : Diagnostic) (help : String) : Diagnostic :=
  { diagnostic with help := some help }

def withCode (diagnostic : Diagnostic) (code : String) : Diagnostic :=
  { diagnostic with code := some code }

def isError (diagnostic : Diagnostic) : Bool := diagnostic.severity == .error

/-- A diagnostic in one line. -/
def text (diagnostic : Diagnostic) : String :=
  let severity := diagnostic.severity.text
  match diagnostic.code with
  | some code => severity ++ "(" ++ code ++ "): " ++ diagnostic.message
  | none => severity ++ ": " ++ diagnostic.message

end Diagnostic

end ParseView
