import ParseView.Config.Basic
import ParseView.Json.Pretty

/-!
# The schema of configurations

The schema describes every section and every setting of a configuration for editors that complete
and check it. Every setting may be null.
-/

namespace ParseView.Config.Schema

open Json (Value)

/-- The address that names the schema. -/
def address : String := "https://octofhir.github.io/oxbind/schema/v1.json"

def dialect : String := "https://json-schema.org/draft/2020-12/schema"

def described (description : String) (fields : Fields Value) : Value :=
  .object (("description", .string description) :: fields)

/-- A setting of a kind that every schema knows. -/
def simple (kind description : String) : Value :=
  described description [("type", .array [.string kind, .string "null"])]

/-- A setting of a kind that is defined in the schema. -/
def reference (name description : String) : Value :=
  described description
    [("anyOf", .array [.object [("$ref", .string ("#/$defs/" ++ name))],
      .object [("type", .string "null")]])]

def object (description : String) (properties : Fields Value) : Value :=
  described description [("type", .string "object"), ("properties", .object properties)]

/-- One of several names. -/
def enumeration (names : List String) : Fields Value :=
  [("type", .string "string"), ("enum", .array (names.map .string))]

def parserProperties : Fields Value :=
  [("sourceType", reference "SourceType" "Script, module or unambiguous goal"),
    ("lang", reference "Lang" "Dialect used when it cannot be inferred from the file name"),
    ("astType", reference "AstType" "Shape of the emitted tree"),
    ("range", simple "boolean" "Emit a [start, end] range on every node"),
    ("preserveParens", simple "boolean" "Keep ParenthesizedExpression nodes"),
    ("showSemanticErrors", simple "boolean" "Report semantic errors as well as syntax errors")]

def sourceMapProperties : Fields Value :=
  [("includeContent", simple "boolean" "Embed the original text in sourcesContent"),
    ("hires", simple "boolean" "Emit a segment per character of unedited text")]

/-- The goals, of which the last one is told by itself. -/
def goals : Value :=
  described "Script or module goal"
    [("oneOf", .array [.object (enumeration [Goal.script.text, Goal.module.text]),
      described "Module when the source has module syntax, script otherwise"
        [("type", .string "string"), ("const", .string Goal.unambiguous.text)]])]

def definitions : Fields Value :=
  [("ParserDefaults", object "Parse option defaults" parserProperties),
    ("SourceType", goals),
    ("Lang", described "Source dialect"
      (enumeration ([Language.js, .jsx, .ts, .tsx, .dts].map Language.text))),
    ("AstType", described "Shape of the emitted tree"
      (enumeration ([TreeForm.js, .ts].map TreeForm.text))),
    ("SourceMapDefaults", object "Source map rendering defaults" sourceMapProperties)]

def properties : Fields Value :=
  [("$schema", simple "string" "JSON schema reference, ignored by the loader"),
    ("parser", reference "ParserDefaults" "Defaults for parse options left unset by the caller"),
    ("sourceMap", reference "SourceMapDefaults" "Defaults for source map rendering")]

def document : Value :=
  .object [("$schema", .string dialect), ("title", .string "oxbind Configuration"),
    ("description", .string "Root configuration"), ("type", .string "object"),
    ("properties", .object properties), ("$defs", .object definitions),
    ("$id", .string address)]

/-- The schema as it is handed out. -/
def text : String := document.prettyText

end ParseView.Config.Schema
