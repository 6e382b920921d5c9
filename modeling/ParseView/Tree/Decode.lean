import ParseView.Json.Reader
import ParseView.Text.Quoted
import ParseView.Tree.Basic
import ParseView.Tree.Numeral

/-!
# From a text to a tree

The interchange format has neither big integers nor regular expressions, so a literal that has such
a value carries its source in a field of its own beside a null. A literal is repaired as soon as its
object closes, and what is wrong with it is reported there: faults come in the order of the text,
whether they are faults of the text or of a literal.
-/

namespace ParseView.Tree

inductive LiteralError where
  | rawNotString (found : Shape)
  | bigintNotString (found : Shape)
  | regexNotObject (found : Shape)
  | regexPartNotString (part : String)
  | notNumeral (numeral : String)
  | valueNotPrimitive (found : Shape)
deriving DecidableEq, Repr

def LiteralError.message : LiteralError → String
  | .rawNotString found => "Literal `raw` must be a string, found " ++ found.text
  | .bigintNotString found => "Literal `bigint` must be a string, found " ++ found.text
  | .regexNotObject found => "Literal `regex` must be an object, found " ++ found.text
  | .regexPartNotString part => "Literal `regex." ++ part ++ "` must be a string"
  | .notNumeral numeral => "Literal `bigint` is not a valid numeral: " ++ Text.quoted numeral
  | .valueNotPrimitive found => "Literal `value` must be a primitive, found " ++ found.text

/-- What stops the decoding of a value, and where. -/
inductive Problem where
  | fault (cause : Json.Cause) (place : Json.Place)
  | literal (error : LiteralError) (place : Json.Place)
deriving DecidableEq, Repr

def Problem.ofFault (fault : Json.Fault) : Problem := .fault fault.cause fault.place

/-- Why a text is no program. -/
inductive DecodeError where
  | fault (cause : Json.Cause) (position : Json.Position)
  | literal (error : LiteralError) (position : Json.Position)
  | root (found : Shape)
deriving DecidableEq, Repr

/-- The place of an error as it is told behind its cause. -/
def atPosition (position : Json.Position) : String :=
  " at line " ++ toString position.line ++ " column " ++ toString position.column

def DecodeError.message : DecodeError → String
  | .fault cause position => cause.message ++ atPosition position
  | .literal error position => error.message ++ atPosition position
  | .root found => "program root is " ++ found.text ++ ", expected a syntax node"

/-! ## Repairing a literal -/

/-- A text that may be missing or null. -/
def optionalText (error : Shape → LiteralError) : Option Value → Except LiteralError (Option String)
  | none | some .null => .ok none
  | some (.string s) => .ok (some s)
  | some other => .error (error other.shape)

def regexPart (source : Fields Value) (part : String) : Except LiteralError String :=
  match Fields.get? part source with
  | some (.string s) => .ok s
  | _ => .error (.regexPartNotString part)

def optionalRegex : Option Value → Except LiteralError (Option Regexp.Source)
  | none | some .null => .ok none
  | some (.object source) => do
    let pattern ← regexPart source "pattern"
    let flags ← regexPart source "flags"
    return some ⟨pattern, flags⟩
  | some other => .error (.regexNotObject other.shape)

/-- The value that a null stands for. -/
def restoredValue (bigint : Option String) (regex : Option Regexp.Source) :
    Except LiteralError LiteralValue :=
  match bigint, regex with
  | some numeral, _ =>
    match numeralValue? numeral.toList with
    | some n => .ok (.bigint n)
    | none => .error (.notNumeral numeral)
  | none, some source =>
    match Regexp.compile? source with
    | some r => .ok (.regexp r)
    | none => .ok .null
  | none, none => .ok .null

def literalValue (encoded : Value) (bigint : Option String) (regex : Option Regexp.Source) :
    Except LiteralError LiteralValue :=
  match encoded with
  | .null => restoredValue bigint regex
  | .bool b => .ok (.boolean b)
  | .number n => .ok (.number n.toBinary64)
  | .string s => .ok (.string s)
  | other => .error (.valueNotPrimitive other.shape)

/-- The fields that a literal's value is made of. -/
def literalParts : List String := ["value", "raw", "bigint", "regex"]

/-- The literal of an object whose kind is that of literals. -/
def repairLiteral (fields : Fields Value) : Except LiteralError Value := do
  let raw ← optionalText .rawNotString (Fields.get? "raw" fields)
  let bigint ← optionalText .bigintNotString (Fields.get? "bigint" fields)
  let regex ← optionalRegex (Fields.get? "regex" fields)
  let value ← literalValue ((Fields.get? "value" fields).getD .null) bigint regex
  return .node (.literal ⟨value, raw, bigint, regex⟩)
    (literalParts.foldl (fun fields part => Fields.erase part fields) fields)

/-- An object is a node when it names its kind. -/
def assemble (fields : Fields Value) : Except LiteralError Value :=
  match Fields.get? "type" fields with
  | some (.string kind) =>
    if kind = Literal.kind then repairLiteral fields else .ok (.node (.element kind) fields)
  | _ => .ok (.object fields)

/-! ## Decoding -/

mutual

def Value.ofDoc : Json.Doc → Except Problem Value
  | .null => .ok .null
  | .bool b => .ok (.bool b)
  | .number n => (n.map .number).mapError .ofFault
  | .string s => (s.map .string).mapError .ofFault
  | .array items ending => do
    let items ← Value.ofDocs items
    match ending with
    | .closed _ => return .array items
    | .cut stop => throw (.ofFault stop.wanted)
  | .object members ending => do
    let entries ← Value.ofMembers members
    match ending with
    | .closed unread => (assemble (Fields.ofEntries entries)).mapError (.literal · ⟨unread, 0⟩)
    | .cut stop => throw (.ofFault stop.wanted)
  | .broken _ stop => .error (.ofFault stop.wanted)
  | .missing stop => .error (.ofFault stop.wanted)

def Value.ofDocs : List Json.Doc → Except Problem (List Value)
  | [] => .ok []
  | doc :: rest => do
    let value ← Value.ofDoc doc
    let values ← Value.ofDocs rest
    return value :: values

def Value.ofMembers : List (Json.Key × Json.Doc) → Except Problem (List (String × Value))
  | [] => .ok []
  | (key, doc) :: rest => do
    let key ← key.mapError Problem.ofFault
    let value ← Value.ofDoc doc
    let entries ← Value.ofMembers rest
    return (key, value) :: entries

end

def Problem.locate (text : String) : Problem → DecodeError
  | .fault cause place => .fault cause (place.position text)
  | .literal error place => .literal error (place.position text)

/-- Reads a program and repairs its literals. -/
def decode (text : String) : Except DecodeError Node := do
  let document := Json.Document.read text
  let value ← (Value.ofDoc document.root).mapError (·.locate text)
  match document.trailingFault? with
  | some fault => throw ((Problem.ofFault fault).locate text)
  | none =>
    match value with
    | .node head fields => return ⟨head, fields⟩
    | other => throw (.root other.shape)

end ParseView.Tree
