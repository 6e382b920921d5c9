import ParseView.Base64
import ParseView.Json.Record
import ParseView.Json.Writer

/-!
# Source maps

A source map is a record of the interchange format, and a data address is its text in base64.
-/

namespace ParseView

structure SourceMap where
  version : UInt8
  file : Option String
  sources : List String
  sourcesContent : Option (List String)
  names : List String
  mappings : String
deriving DecidableEq, Repr

namespace SourceMap

open Json (Record Reader)

def record : Record SourceMap :=
  SourceMap.mk <$> Record.field "version" Reader.uint8
    <*> Record.defaulted "file" (Reader.nullable Reader.text) none
    <*> Record.field "sources" (Reader.listOf Reader.text)
    <*> Record.defaulted "sourcesContent" (Reader.nullable (Reader.listOf Reader.text)) none
    <*> Record.field "names" (Reader.listOf Reader.text)
    <*> Record.field "mappings" Reader.text

def read : Reader SourceMap := record.read "struct SourceMap"

def stringList : List String → Json.Value := .listOf .string

def versionToJson (version : UInt8) : Json.Value :=
  .number (.ofNat version.toNat (Nat.lt_trans version.toNat_lt (by decide)))

/-- What is absent is not written. -/
def toJson (map : SourceMap) : Json.Value :=
  .object (("version", versionToJson map.version)
    :: (Json.Value.present "file" .string map.file
      ++ ("sources", stringList map.sources)
      :: (Json.Value.present "sourcesContent" stringList map.sourcesContent
        ++ [("names", stringList map.names), ("mappings", .string map.mappings)])))

def text (map : SourceMap) : String := map.toJson.text

/-- Bytes of the UTF-8 form of a text. -/
def bytes (text : String) : List UInt8 := text.toList.flatMap String.utf8EncodeChar

def addressStart : String := "data:application/json;charset=utf-8;base64,"

/-- The data address of a map. -/
def address (map : SourceMap) : String :=
  addressStart ++ String.ofList (Base64.encode (bytes map.text))

end SourceMap

end ParseView
