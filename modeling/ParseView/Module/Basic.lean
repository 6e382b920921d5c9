import ParseView.Span

/-!
# Module records

What a module imports and exports, as the parser found it. Every entry says by its kind which of its
names there are.
-/

namespace ParseView.Module

/-- A name that an entry may have, and where it was written. -/
structure Name (κ : Type) where
  kind : κ
  name : Option String
  start : Option UInt32
  stop : Option UInt32
deriving DecidableEq, Repr

/-- What is imported: a named export, all of them as an object, or the default export. -/
inductive ImportKind where
  | name
  | namespaceObject
  | default
deriving DecidableEq, Repr

/-- What is passed on from another module: a name, everything as an object, everything but the
default export, or nothing because there is no other module. -/
inductive SourceKind where
  | name
  | all
  | allButDefault
  | none
deriving DecidableEq, Repr

/-- What an export is called, outside or inside of the module. -/
inductive ExportKind where
  | name
  | default
  | none
deriving DecidableEq, Repr

structure ImportEntry where
  importName : Name ImportKind
  localName : ValueSpan
  isType : Bool
deriving DecidableEq, Repr

structure StaticImport where
  start : UInt32
  stop : UInt32
  moduleRequest : ValueSpan
  /-- Empty when a module is imported for its effect. -/
  entries : List ImportEntry
deriving DecidableEq, Repr

structure ExportEntry where
  start : UInt32
  stop : UInt32
  moduleRequest : Option ValueSpan
  importName : Name SourceKind
  exportName : Name ExportKind
  localName : Name ExportKind
  isType : Bool
deriving DecidableEq, Repr

structure StaticExport where
  start : UInt32
  stop : UInt32
  entries : List ExportEntry
deriving DecidableEq, Repr

structure DynamicImport where
  start : UInt32
  stop : UInt32
  /-- Where the expression for the module stands. -/
  moduleRequest : Span
deriving DecidableEq, Repr

end ParseView.Module

namespace ParseView

structure ModuleRecord where
  /-- Is there anything that only a module can hold? -/
  hasModuleSyntax : Bool := false
  staticImports : List Module.StaticImport := []
  staticExports : List Module.StaticExport := []
  dynamicImports : List Module.DynamicImport := []
  importMetas : List Span := []
deriving DecidableEq, Repr, Inhabited

namespace ModuleRecord

/-- The requests for other modules, those of imports before those of exports. -/
def requests (record : ModuleRecord) : List ValueSpan :=
  record.staticImports.map (·.moduleRequest)
    ++ record.staticExports.flatMap fun exported => exported.entries.filterMap (·.moduleRequest)

/-- The modules that are imported or exported from, in the order of the source. Requests at the
same place keep their order. -/
def requestedModules (record : ModuleRecord) : List String :=
  (record.requests.mergeSort fun first second => first.start ≤ second.start).map (·.value)

end ModuleRecord

end ParseView
