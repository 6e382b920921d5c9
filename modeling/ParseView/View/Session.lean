import ParseView.Aria.Check
import ParseView.View.Basic

/-!
# Sessions

Someone who works with a parse result asks one thing after the other. Each question is answered from
the result as the questions before it left it.
-/

namespace ParseView

/-- What can be asked of a parse result. -/
inductive Query where
  | isProgramRealized
  | isValid
  | program
  | moduleRecord
  | comments
  | errors
  /-- Check the tree; one that does not decode has nothing to tell. -/
  | check
  | text
  | edit (operation : Edit.Operation)
  | map (options : SourceMap.Options)
deriving DecidableEq, Repr

inductive Answer where
  | flag (b : Bool)
  | program (outcome : Except Tree.DecodeError Tree.Node)
  | moduleRecord (record : ModuleRecord)
  | comments (comments : List Comment)
  | diagnostics (diagnostics : List Diagnostic)
  | text (s : String)
  | edit (outcome : Except Edit.Refusal Unit) (buffer : Edit.Buffer)
  | map (map : SourceMap)

namespace ParseResult

/-- The warnings for the tree. -/
def readCheck (result : ParseResult) : List Diagnostic × ParseResult :=
  match result.readProgram with
  | (.ok node, result) => (Aria.check node, result)
  | (.error _, result) => ([], result)

/-- Answers a query. -/
def answer (result : ParseResult) : Query → Answer × ParseResult
  | .isProgramRealized => (.flag result.isProgramRealized, result)
  | .isValid => let (valid, result) := result.readIsValid; (.flag valid, result)
  | .program => let (outcome, result) := result.readProgram; (.program outcome, result)
  | .moduleRecord => let (record, result) := result.readModule; (.moduleRecord record, result)
  | .comments => let (comments, result) := result.readComments; (.comments comments, result)
  | .errors => let (errors, result) := result.readErrors; (.diagnostics errors, result)
  | .check => let (warnings, result) := result.readCheck; (.diagnostics warnings, result)
  | .text => let (text, result) := result.readText; (.text text, result)
  | .edit operation =>
    let (outcome, result) := result.edit operation
    (.edit outcome result.raw.buffer, result)
  | .map options => let (map, result) := result.readMap options; (.map map, result)

/-- Answers queries one after the other. -/
def session (result : ParseResult) : List Query → List Answer × ParseResult
  | [] => ([], result)
  | query :: rest =>
    let (answer, result) := result.answer query
    let (answers, result) := result.session rest
    (answer :: answers, result)

end ParseResult

end ParseView
