import ParseView.Diagnostic.Basic
import ParseView.Json.Record
import ParseView.Json.Writer

/-!
# Comments and diagnostics as documents
-/

namespace ParseView

open Json (Record Reader)

namespace CommentKind

def text : CommentKind → String
  | .line => "Line"
  | .block => "Block"

def read : Reader CommentKind := Reader.oneOf ([line, block].map fun kind => (kind.text, kind))

end CommentKind

namespace Comment

def read : Reader Comment :=
  Record.read "struct Comment" <|
    Comment.mk <$> Record.field "type" CommentKind.read <*> Record.field "value" Reader.text
      <*> Record.field "start" Reader.uint32 <*> Record.field "end" Reader.uint32

def toJson (comment : Comment) : Json.Value :=
  .object [("type", .string comment.kind.text), ("value", .string comment.value),
    ("start", .ofUInt32 comment.start), ("end", .ofUInt32 comment.stop)]

def readAll : Reader (List Comment) := Reader.listOf read

def allToJson : List Comment → Json.Value := .listOf toJson

end Comment

namespace Severity

/-- The name of a severity in a document. -/
def tag : Severity → String
  | .error => "Error"
  | .warning => "Warning"
  | .advice => "Advice"

def read : Reader Severity :=
  Reader.oneOf ([error, warning, advice].map fun severity => (severity.tag, severity))

end Severity

namespace Label

def read : Reader Label :=
  Record.read "struct ErrorLabel" <|
    Label.mk <$> Record.nullable "message" Reader.text <*> Record.field "start" Reader.uint32
      <*> Record.field "end" Reader.uint32

def toJson (label : Label) : Json.Value :=
  .object [("message", .nullable .string label.message), ("start", .ofUInt32 label.start),
    ("end", .ofUInt32 label.stop)]

end Label

namespace Diagnostic

def read : Reader Diagnostic :=
  Record.read "struct ParseDiagnostic" <|
    Diagnostic.mk <$> Record.field "severity" Severity.read <*> Record.field "message" Reader.text
      <*> Record.defaulted "labels" (Reader.listOf Label.read) []
      <*> Record.nullable "helpMessage" Reader.text
      <*> Record.defaulted "code" (Reader.nullable Reader.text) none

/-- An absent code is not written, absent help is null. -/
def toJson (diagnostic : Diagnostic) : Json.Value :=
  .object ([("severity", Json.Value.string diagnostic.severity.tag),
    ("message", .string diagnostic.message), ("labels", .listOf Label.toJson diagnostic.labels),
    ("helpMessage", .nullable .string diagnostic.help)]
    ++ Json.Value.present "code" .string diagnostic.code)

def readAll : Reader (List Diagnostic) := Reader.listOf read

def allToJson : List Diagnostic → Json.Value := .listOf toJson

end Diagnostic

end ParseView
