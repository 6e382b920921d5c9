import ParseView.Json.Record
import ParseView.Json.Writer

/-!
# Places in the source

A span is a range of bytes of the source text. Some texts are kept together with the span where
they were written.
-/

namespace ParseView

open Json (Record Reader)

structure Span where
  start : UInt32
  stop : UInt32
deriving DecidableEq, Repr, Inhabited

namespace Span

def record : Record Span :=
  Span.mk <$> Record.field "start" Reader.uint32 <*> Record.field "end" Reader.uint32

def read : Reader Span := record.read "struct Span"

def toJson (span : Span) : Json.Value :=
  .object [("start", .ofUInt32 span.start), ("end", .ofUInt32 span.stop)]

end Span

/-- A text and where it was written. -/
structure ValueSpan where
  value : String
  start : UInt32
  stop : UInt32
deriving DecidableEq, Repr, Inhabited

namespace ValueSpan

def record : Record ValueSpan :=
  ValueSpan.mk <$> Record.field "value" Reader.text <*> Record.field "start" Reader.uint32
    <*> Record.field "end" Reader.uint32

def read : Reader ValueSpan := record.read "struct ValueSpan"

def toJson (span : ValueSpan) : Json.Value :=
  .object [("value", .string span.value), ("start", .ofUInt32 span.start),
    ("end", .ofUInt32 span.stop)]

end ValueSpan

end ParseView
