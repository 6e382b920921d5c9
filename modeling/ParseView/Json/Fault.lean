import ParseView.Text.Units

/-!
# What can be wrong with a text

A fault is a cause and a place. The place is kept as the text that was still unread when the fault
was found, so that reading needs no counter; line and column are worked out from it when the fault
is reported.
-/

namespace ParseView.Json

inductive Cause where
  | endOfValue
  | endOfString
  | endOfList
  | endOfObject
  | expectedValue
  | expectedWord
  | expectedColon
  | expectedListSeparator
  | expectedObjectSeparator
  | keyNotString
  | trailingComma
  | trailingCharacters
  | invalidNumber
  | numberOutOfRange
  | invalidEscape
  | unfinishedSurrogatePair
  | loneSurrogate
  | controlCharacter
  | tooDeep
deriving DecidableEq, Repr

def Cause.message : Cause → String
  | .endOfValue => "EOF while parsing a value"
  | .endOfString => "EOF while parsing a string"
  | .endOfList => "EOF while parsing a list"
  | .endOfObject => "EOF while parsing an object"
  | .expectedValue => "expected value"
  | .expectedWord => "expected ident"
  | .expectedColon => "expected `:`"
  | .expectedListSeparator => "expected `,` or `]`"
  | .expectedObjectSeparator => "expected `,` or `\x7d`"
  | .keyNotString => "key must be a string"
  | .trailingComma => "trailing comma"
  | .trailingCharacters => "trailing characters"
  | .invalidNumber => "invalid number"
  | .numberOutOfRange => "number out of range"
  | .invalidEscape => "invalid escape"
  | .unfinishedSurrogatePair => "unexpected end of hex escape"
  | .loneSurrogate => "lone leading surrogate in hex escape"
  | .controlCharacter => "control character (\\u0000-\\u001F) found while parsing a string"
  | .tooDeep => "recursion limit exceeded"

/-- A place in a text: `offset` bytes into the unread part. -/
structure Place where
  unread : List Char
  offset : Nat
deriving DecidableEq, Repr

/-- A line, counted from one, and the bytes of that line up to the place. -/
structure Position where
  line : Nat
  column : Nat
deriving DecidableEq, Repr

/-- Line and column reached by a run of bytes. -/
def Position.advance (p : Position) (byte : UInt8) : Position :=
  if byte = 10 then ⟨p.line + 1, 0⟩ else ⟨p.line, p.column + 1⟩

/-- The position of a place in the text it was found in. A place past the end is the end. -/
def Place.position (place : Place) (text : String) : Position :=
  let bytes := text.toUTF8.toList
  let consumed := bytes.length - Text.utf8Length place.unread + place.offset
  (bytes.take consumed).foldl Position.advance ⟨1, 0⟩

structure Fault where
  cause : Cause
  place : Place
deriving DecidableEq, Repr

namespace Fault

/-- A fault seen at the first byte of the unread text, which counts as seen. -/
def seen (cause : Cause) (unread : List Char) : Fault := ⟨cause, unread, 1⟩

/-- A fault behind everything that has been read. -/
def behind (cause : Cause) (unread : List Char) : Fault := ⟨cause, unread, 0⟩

/-- A fault at the end of the text. -/
def ending (cause : Cause) : Fault := ⟨cause, [], 0⟩

end Fault

/-- Where reading breaks off. A reader that wants the value and one that passes over it may see
different faults: the second does not mind a value that no string or number could hold, and it
names some faults of punctuation otherwise. -/
structure Stop where
  wanted : Fault
  skimmed : Cause
deriving DecidableEq, Repr

def Stop.same (fault : Fault) : Stop := ⟨fault, fault.cause⟩

end ParseView.Json
