import ParseView.Config.Basic
import ParseView.Toml.Reader

/-!
# Configurations from settings files

A settings file has no null: a setting that is absent is left out. Its readers only tell whether a
value is what was wanted.
-/

namespace ParseView.Config

open Toml (Entries Value)

/-- The numbers of a hundred and twenty-eight bits, with a sign or without one. -/
def isInRange (n : Int) : Bool :=
  -0x80000000000000000000000000000000 ≤ n && n ≤ 0xffffffffffffffffffffffffffffffff

/-- Is a value nobody wants at least within the range of numbers? -/
def isReadable : Value → Bool
  | .integer n => isInRange n
  | .array items _ => listIsReadable items
  | .table _ entries => entriesAreReadable entries
  | .boolean _ | .string _ | .float | .dateTime => true
where
  listIsReadable : List Value → Bool
    | [] => true
    | value :: rest => isReadable value && listIsReadable rest
  entriesAreReadable : List (String × Value) → Bool
    | [] => true
    | (_, value) :: rest => isReadable value && entriesAreReadable rest

def text? : Value → Option String
  | .string s => some s
  | _ => none

def flag? : Value → Option Bool
  | .boolean b => some b
  | _ => none

/-- Is this a list or a table without content? -/
def isEmptyValue : Value → Bool
  | .array [] _ | .table _ [] => true
  | _ => false

/-- One of several names, or a table with the name as its only key and nothing in it. -/
def choice? {α : Type} (values : List α) (name : α → String) (value : Value) : Option α :=
  let named (s : String) : Option α := values.find? (name · = s)
  match value with
  | .string s => named s
  | .table _ [(key, inner)] => if isEmptyValue inner then named key else none
  | _ => none

/-- A setting that may be left out; nothing if it is there with another kind of value. -/
def setting? {α : Type} (read : Value → Option α) (name : String) (entries : Entries) :
    Option (Option α) :=
  match Fields.get? name entries with
  | none => some none
  | some value => (read value).map some

/-- Are all entries but the settings at least readable? -/
def othersAreReadable (names : List String) (entries : Entries) : Bool :=
  entries.all fun (name, value) => names.contains name || isReadable value

def goal? : Value → Option Goal := choice? [.script, .module, .unambiguous] Goal.text

def language? : Value → Option Language := choice? [.js, .jsx, .ts, .tsx, .dts] Language.text

def treeForm? : Value → Option TreeForm := choice? [.js, .ts] TreeForm.text

def parserSettings : List String :=
  ["sourceType", "lang", "astType", "range", "preserveParens", "showSemanticErrors"]

/-- The defaults of a section: its settings by name, or all of them in a list. A date has settings
of its own, none of which is known. -/
def parserSection? : Value → Option ParserDefaults
  | .table _ entries => do
    if !othersAreReadable parserSettings entries then none
    return {
      goal := ← setting? goal? "sourceType" entries
      language := ← setting? language? "lang" entries
      treeForm := ← setting? treeForm? "astType" entries
      range := ← setting? flag? "range" entries
      preserveParens := ← setting? flag? "preserveParens" entries
      showSemanticErrors := ← setting? flag? "showSemanticErrors" entries }
  | .array (goal :: language :: form :: range :: parens :: errors :: _) _ => do
    return {
      goal := some (← goal? goal)
      language := some (← language? language)
      treeForm := some (← treeForm? form)
      range := some (← flag? range)
      preserveParens := some (← flag? parens)
      showSemanticErrors := some (← flag? errors) }
  | .dateTime => some {}
  | _ => none

def sourceMapSettings : List String := ["includeContent", "hires"]

def sourceMapSection? : Value → Option SourceMap.Defaults
  | .table _ entries => do
    if !othersAreReadable sourceMapSettings entries then none
    return {
      includeContent := ← setting? flag? "includeContent" entries
      everyChar := ← setting? flag? "hires" entries }
  | .array (content :: chars :: _) _ => do
    return { includeContent := some (← flag? content), everyChar := some (← flag? chars) }
  | .dateTime => some {}
  | _ => none

def sections : List String := ["$schema", "parser", "sourceMap"]

/-- The configuration that entries of a settings file make. -/
def ofEntries? (entries : Entries) : Option Configuration := do
  if !othersAreReadable sections entries then none
  return {
    schema := ← setting? text? "$schema" entries
    parser := ← setting? parserSection? "parser" entries
    sourceMap := ← setting? sourceMapSection? "sourceMap" entries }

/-- The configuration of a settings file. -/
def ofSettings? (text : String) : Option Configuration := (Toml.read? text).bind ofEntries?

end ParseView.Config
