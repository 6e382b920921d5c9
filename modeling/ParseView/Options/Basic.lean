import ParseView.Json.Record
import ParseView.Json.Writer
import ParseView.Options.Language

/-!
# Parse options

What a parser is told besides the source. An option that is not set can be filled in from defaults,
and language and form of the tree are then worked out from what is set.
-/

namespace ParseView

open Json (Record Reader)

/-- What a source is parsed as. -/
inductive Goal where
  | script
  | module
  /-- A module if it has the form of one, and else a script. -/
  | unambiguous
deriving DecidableEq, Repr

def Goal.text : Goal → String
  | .script => "script"
  | .module => "module"
  | .unambiguous => "unambiguous"

/-- The form of the tree: with or without the nodes for types. -/
inductive TreeForm where
  | js
  | ts
deriving DecidableEq, Repr

def TreeForm.text : TreeForm → String
  | .js => "js"
  | .ts => "ts"

/-- The options that have defaults. -/
structure ParserDefaults where
  goal : Option Goal := none
  language : Option Language := none
  treeForm : Option TreeForm := none
  /-- Put a range on every node. -/
  range : Option Bool := none
  /-- Keep nodes for parentheses. -/
  preserveParens : Option Bool := none
  /-- Report semantic errors besides those of form. -/
  showSemanticErrors : Option Bool := none
deriving DecidableEq, Repr, Inhabited

structure ParseOptions where
  fileName : String
  source : String
  settings : ParserDefaults := {}
deriving DecidableEq, Repr, Inhabited

namespace ParserDefaults

/-- These defaults, with gaps filled in from others. -/
def orElse (first second : ParserDefaults) : ParserDefaults where
  goal := first.goal.or second.goal
  language := first.language.or second.language
  treeForm := first.treeForm.or second.treeForm
  range := first.range.or second.range
  preserveParens := first.preserveParens.or second.preserveParens
  showSemanticErrors := first.showSemanticErrors.or second.showSemanticErrors

end ParserDefaults

namespace ParseOptions

def withLanguage (options : ParseOptions) (language : Language) : ParseOptions :=
  { options with settings := { options.settings with language := some language } }

def withGoal (options : ParseOptions) (goal : Goal) : ParseOptions :=
  { options with settings := { options.settings with goal := some goal } }

/-- What is not set is taken from defaults. -/
def withDefaults (options : ParseOptions) (defaults : ParserDefaults) : ParseOptions :=
  { options with settings := options.settings.orElse defaults }

/-- The language to parse; none if it is neither set nor told by the file name. -/
def language? (options : ParseOptions) : Option Language :=
  options.settings.language.or (Language.ofPath? options.fileName)

/-- A file name that does not tell the language. -/
structure UnknownLanguage where
  fileName : String
deriving DecidableEq, Repr

def UnknownLanguage.message (error : UnknownLanguage) : String :=
  "Cannot infer a language from '" ++ error.fileName ++ "'; set `lang` explicitly"

def resolvedLanguage (options : ParseOptions) : Except UnknownLanguage Language :=
  match options.language? with
  | some language => .ok language
  | none => .error ⟨options.fileName⟩

/-- The form of the tree; typed languages have typed trees unless another form is set. -/
def resolvedTreeForm (options : ParseOptions) : Except UnknownLanguage TreeForm :=
  match options.settings.treeForm with
  | some form => .ok form
  | none => options.resolvedLanguage.map fun language => if language.isTyped then .ts else .js

end ParseOptions

/-! ## Documents -/

def Goal.read : Reader Goal :=
  Reader.oneOf ([script, module, unambiguous].map fun goal => (goal.text, goal))

def Language.read : Reader Language :=
  Reader.oneOf ([js, jsx, ts, tsx, dts].map fun language => (language.text, language))

def TreeForm.read : Reader TreeForm := Reader.oneOf ([js, ts].map fun form => (form.text, form))

namespace ParserDefaults

def record : Record ParserDefaults :=
  ParserDefaults.mk <$> Record.nullable "sourceType" Goal.read
    <*> Record.nullable "lang" Language.read <*> Record.nullable "astType" TreeForm.read
    <*> Record.nullable "range" Reader.boolean
    <*> Record.nullable "preserveParens" Reader.boolean
    <*> Record.nullable "showSemanticErrors" Reader.boolean

def read : Reader ParserDefaults := record.read "struct ParserDefaults"

/-- The fields of the options that have defaults. -/
def toFields (defaults : ParserDefaults) : Fields Json.Value :=
  [("sourceType", .nullable (.string ·.text) defaults.goal),
    ("lang", .nullable (.string ·.text) defaults.language),
    ("astType", .nullable (.string ·.text) defaults.treeForm),
    ("range", .nullable .bool defaults.range),
    ("preserveParens", .nullable .bool defaults.preserveParens),
    ("showSemanticErrors", .nullable .bool defaults.showSemanticErrors)]

def toJson (defaults : ParserDefaults) : Json.Value := .object defaults.toFields

end ParserDefaults

namespace ParseOptions

def read : Reader ParseOptions :=
  Record.read "struct ParseOptions" <|
    ParseOptions.mk <$> Record.field "filename" Reader.text
      <*> Record.field "sourceText" Reader.text <*> ParserDefaults.record

def toJson (options : ParseOptions) : Json.Value :=
  .object (("filename", .string options.fileName) :: ("sourceText", .string options.source)
    :: options.settings.toFields)

end ParseOptions

end ParseView
