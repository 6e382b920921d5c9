import ParseView.Edit.Buffer
import ParseView.SourceMap.Document
import ParseView.SourceMap.Mappings

/-!
# The source map of an edit buffer

A map is made from the buffer as it is. Text of the source is mapped from where each piece of it
begins, a replacement from its first character to the start of what it replaced, and inserted text
from nowhere.
-/

namespace ParseView.SourceMap

open Edit (Buffer Chunk LineIndex)

/-- Defaults for maps that a configuration can give. -/
structure Defaults where
  includeContent : Option Bool := none
  everyChar : Option Bool := none
deriving DecidableEq, Repr, Inhabited

structure Options where
  source : Option String := none
  file : Option String := none
  /-- Put the source into the map. -/
  includeContent : Bool := false
  /-- Map every character and not only starts of lines. -/
  everyChar : Bool := false
deriving DecidableEq, Repr, Inhabited

def Options.ofDefaults (defaults : Defaults) : Options :=
  { includeContent := defaults.includeContent.getD false
    everyChar := defaults.everyChar.getD false }

/-- Lays out a chunk. -/
def layChunk (everyChar : Bool) (index : LineIndex) (layout : Layout) (chunk : Chunk) : Layout :=
  let layout := layout.advance chunk.intro
  let origin := index.position chunk.start
  let layout :=
    if !chunk.isEdited then layout.addSource everyChar true origin chunk.content
    else if chunk.content.isEmpty then layout
    else (layout.addSegment origin).advance chunk.content
  layout.advance chunk.outro

/-- The lines of segments of a buffer's text. -/
def linesOf (everyChar : Bool) (buffer : Buffer) : List (List Segment) :=
  let index := LineIndex.ofSource buffer.source
  let layout := Layout.empty.advance buffer.intro
  ((buffer.chunks.foldl (layChunk everyChar index) layout).advance buffer.outro).lines

def ofBuffer (buffer : Buffer) (options : Options) : SourceMap where
  version := 3
  file := options.file
  sources := [options.source.getD ""]
  sourcesContent := if options.includeContent then some [String.ofList buffer.source] else none
  names := []
  mappings := String.ofList (encodeMappings (linesOf options.everyChar buffer))

end ParseView.SourceMap
