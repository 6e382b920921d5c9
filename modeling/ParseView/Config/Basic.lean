import ParseView.Options.Basic
import ParseView.SourceMap.Export

/-!
# Configurations

A configuration gives defaults to parse options and to source maps. Of two configurations the nearer
one comes first, setting by setting.
-/

namespace ParseView

open Json (Record Reader)

namespace SourceMap.Defaults

def orElse (first second : Defaults) : Defaults where
  includeContent := first.includeContent.or second.includeContent
  everyChar := first.everyChar.or second.everyChar

def record : Record Defaults :=
  Defaults.mk <$> Record.nullable "includeContent" Reader.boolean
    <*> Record.nullable "hires" Reader.boolean

def read : Reader Defaults := record.read "struct SourceMapDefaults"

def toJson (defaults : Defaults) : Json.Value :=
  .object [("includeContent", .nullable .bool defaults.includeContent),
    ("hires", .nullable .bool defaults.everyChar)]

end SourceMap.Defaults

structure Configuration where
  /-- A reference to a schema, which does nothing. -/
  schema : Option String := none
  parser : Option ParserDefaults := none
  sourceMap : Option SourceMap.Defaults := none
deriving DecidableEq, Repr, Inhabited

namespace Configuration

def parserDefaults (config : Configuration) : ParserDefaults := config.parser.getD {}

def sourceMapDefaults (config : Configuration) : SourceMap.Defaults := config.sourceMap.getD {}

/-- Two sections in one, if there is at least one of them. -/
def mergeSections {α : Type} (orElse : α → α → α) : Option α → Option α → Option α
  | some first, some second => some (orElse first second)
  | first, second => first.or second

/-- This configuration, with gaps filled in from another one. -/
def merge (first second : Configuration) : Configuration where
  schema := first.schema
  parser := mergeSections ParserDefaults.orElse first.parser second.parser
  sourceMap := mergeSections SourceMap.Defaults.orElse first.sourceMap second.sourceMap

def record : Record Configuration :=
  Configuration.mk <$> Record.nullable "$schema" Reader.text
    <*> Record.nullable "parser" ParserDefaults.read
    <*> Record.nullable "sourceMap" SourceMap.Defaults.read

def read : Reader Configuration := record.read "struct OxbindConfiguration"

/-- Sections that are absent are not written. -/
def toJson (config : Configuration) : Json.Value :=
  .object (Json.Value.present "$schema" .string config.schema
    ++ Json.Value.present "parser" ParserDefaults.toJson config.parser
    ++ Json.Value.present "sourceMap" SourceMap.Defaults.toJson config.sourceMap)

end Configuration

end ParseView
