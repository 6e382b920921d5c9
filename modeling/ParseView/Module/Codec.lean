import ParseView.Module.Basic

/-!
# Module records as documents
-/

namespace ParseView.Module

open Json (Record Reader)

def ImportKind.text : ImportKind → String
  | .name => "Name"
  | .namespaceObject => "NamespaceObject"
  | .default => "Default"

def SourceKind.text : SourceKind → String
  | .name => "Name"
  | .all => "All"
  | .allButDefault => "AllButDefault"
  | .none => "None"

def ExportKind.text : ExportKind → String
  | .name => "Name"
  | .default => "Default"
  | .none => "None"

def ImportKind.read : Reader ImportKind :=
  Reader.oneOf ([.name, .namespaceObject, .default].map fun kind => (kind.text, kind))

def SourceKind.read : Reader SourceKind :=
  Reader.oneOf ([.name, .all, .allButDefault, .none].map fun kind => (kind.text, kind))

def ExportKind.read : Reader ExportKind :=
  Reader.oneOf ([.name, .default, .none].map fun kind => (kind.text, kind))

namespace Name

variable {κ : Type}

def record (kind : Reader κ) : Record (Name κ) :=
  Name.mk <$> Record.field "kind" kind <*> Record.nullable "name" Reader.text
    <*> Record.nullable "start" Reader.uint32 <*> Record.nullable "end" Reader.uint32

def toJson (kindText : κ → String) (name : Name κ) : Json.Value :=
  .object [("kind", .string (kindText name.kind)), ("name", .nullable .string name.name),
    ("start", .nullable .ofUInt32 name.start), ("end", .nullable .ofUInt32 name.stop)]

end Name

namespace ImportEntry

def read : Reader ImportEntry :=
  Record.read "struct ImportEntry" <|
    ImportEntry.mk
      <$> Record.field "importName" ((Name.record ImportKind.read).read "struct ImportName")
      <*> Record.field "localName" ValueSpan.read
      <*> Record.field "isType" Reader.boolean

def toJson (entry : ImportEntry) : Json.Value :=
  .object [("importName", entry.importName.toJson ImportKind.text),
    ("localName", entry.localName.toJson), ("isType", .bool entry.isType)]

end ImportEntry

namespace StaticImport

def read : Reader StaticImport :=
  Record.read "struct StaticImport" <|
    StaticImport.mk <$> Record.field "start" Reader.uint32 <*> Record.field "end" Reader.uint32
      <*> Record.field "moduleRequest" ValueSpan.read
      <*> Record.field "entries" (Reader.listOf ImportEntry.read)

def toJson (imported : StaticImport) : Json.Value :=
  .object [("start", .ofUInt32 imported.start), ("end", .ofUInt32 imported.stop),
    ("moduleRequest", imported.moduleRequest.toJson),
    ("entries", .listOf ImportEntry.toJson imported.entries)]

end StaticImport

namespace ExportEntry

def read : Reader ExportEntry :=
  Record.read "struct ExportEntry" <|
    ExportEntry.mk <$> Record.field "start" Reader.uint32 <*> Record.field "end" Reader.uint32
      <*> Record.nullable "moduleRequest" ValueSpan.read
      <*> Record.field "importName" ((Name.record SourceKind.read).read "struct ExportImportName")
      <*> Record.field "exportName" ((Name.record ExportKind.read).read "struct ExportExportName")
      <*> Record.field "localName" ((Name.record ExportKind.read).read "struct ExportLocalName")
      <*> Record.field "isType" Reader.boolean

def toJson (entry : ExportEntry) : Json.Value :=
  .object [("start", .ofUInt32 entry.start), ("end", .ofUInt32 entry.stop),
    ("moduleRequest", .nullable ValueSpan.toJson entry.moduleRequest),
    ("importName", entry.importName.toJson SourceKind.text),
    ("exportName", entry.exportName.toJson ExportKind.text),
    ("localName", entry.localName.toJson ExportKind.text), ("isType", .bool entry.isType)]

end ExportEntry

namespace StaticExport

def read : Reader StaticExport :=
  Record.read "struct StaticExport" <|
    StaticExport.mk <$> Record.field "start" Reader.uint32 <*> Record.field "end" Reader.uint32
      <*> Record.field "entries" (Reader.listOf ExportEntry.read)

def toJson (exported : StaticExport) : Json.Value :=
  .object [("start", .ofUInt32 exported.start), ("end", .ofUInt32 exported.stop),
    ("entries", .listOf ExportEntry.toJson exported.entries)]

end StaticExport

namespace DynamicImport

def read : Reader DynamicImport :=
  Record.read "struct DynamicImport" <|
    DynamicImport.mk <$> Record.field "start" Reader.uint32 <*> Record.field "end" Reader.uint32
      <*> Record.field "moduleRequest" Span.read

def toJson (imported : DynamicImport) : Json.Value :=
  .object [("start", .ofUInt32 imported.start), ("end", .ofUInt32 imported.stop),
    ("moduleRequest", imported.moduleRequest.toJson)]

end DynamicImport

end ParseView.Module

namespace ParseView.ModuleRecord

open Json (Record Reader)
open ParseView.Module

def read : Reader ModuleRecord :=
  Record.read "struct EcmaScriptModule" <|
    ModuleRecord.mk <$> Record.field "hasModuleSyntax" Reader.boolean
      <*> Record.field "staticImports" (Reader.listOf StaticImport.read)
      <*> Record.field "staticExports" (Reader.listOf StaticExport.read)
      <*> Record.field "dynamicImports" (Reader.listOf DynamicImport.read)
      <*> Record.field "importMetas" (Reader.listOf Span.read)

def toJson (record : ModuleRecord) : Json.Value :=
  .object [("hasModuleSyntax", .bool record.hasModuleSyntax),
    ("staticImports", .listOf StaticImport.toJson record.staticImports),
    ("staticExports", .listOf StaticExport.toJson record.staticExports),
    ("dynamicImports", .listOf DynamicImport.toJson record.dynamicImports),
    ("importMetas", .listOf Span.toJson record.importMetas)]

end ParseView.ModuleRecord
