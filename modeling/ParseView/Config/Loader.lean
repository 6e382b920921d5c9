import ParseView.Config.Settings
import ParseView.Failure
import ParseView.Files.Basic

/-!
# Finding and loading configurations

The configuration for a place is the nearest one: the directory itself is searched first, then those
around it. Where a directory has several, the names have an order.
-/

namespace ParseView.Config

/-- The names of configuration files, the first one first. -/
def fileNames : List String := [".oxbindrc.json", ".oxbindrc.toml", "oxbind.json"]

inductive LoadError where
  /-- The search cannot begin. -/
  | invalidStart (error : FileError)
  /-- A file that was named is not there. -/
  | missing (path : String)
  | unreadable (path : String) (error : FileError)
  | malformed (path : String) (refusal : Json.Refusal)
  | malformedSettings (path : String)
deriving DecidableEq, Repr

def LoadError.failure : LoadError → Failure
  | .invalidStart error => .config ("Invalid path: " ++ error.message)
  | .missing path => .config ("Config file not found: " ++ path)
  | .unreadable path error => .io path error.message
  | .malformed path refusal =>
    .config ("Failed to load config from '" ++ path ++ "': " ++ refusal.message)
  | .malformedSettings path => .config ("Failed to load config from '" ++ path ++ "'")

/-- The paths that a configuration of a directory can have. -/
def candidates (steps : List String) : List String :=
  fileNames.map fun name => Path.absolute (steps ++ [name])

/-- Reads a configuration from the text of a file. The extension tells its form. -/
def ofText (path text : String) : Except LoadError Configuration :=
  if Path.extension? path = some "toml" then
    match ofSettings? text with
    | some config => .ok config
    | none => .error (.malformedSettings path)
  else (Json.readText Configuration.read text).mapError (.malformed path)

variable {m : Type → Type} [Monad m] [MonadFiles m]

/-- The first of some paths that leads to a file. -/
def firstFile? : List String → m (Option String)
  | [] => return none
  | path :: rest => do
    if ← Files.isFile path then return some path else firstFile? rest

/-- Searches a directory, given its last step first, and then those around it. -/
def searchUp? : List String → m (Option String)
  | [] => firstFile? (candidates [])
  | step :: outer => do
    match ← firstFile? (candidates (step :: outer).reverse) with
    | some path => return some path
    | none => searchUp? outer

/-- The path of the nearest configuration. -/
def discover (start : String) : m (Except LoadError (Option String)) := do
  match ← MonadFiles.resolve start with
  | .ok steps => return .ok (← searchUp? steps.reverse)
  | .error error => return .error (.invalidStart error)

/-- Loads the configuration of a file. -/
def loadFile (path : String) : m (Except LoadError Configuration) := do
  match ← MonadFiles.readText path with
  | .ok text => return ofText path text
  | .error error => return .error (.unreadable path error)

/-- Loads the configuration of a file that is named, or else the nearest one. Where there is none,
nothing is set. -/
def load (file start : Option String) : m (Except LoadError Configuration) := do
  match file with
  | some path =>
    match ← MonadFiles.kind? path with
    | some _ => loadFile path
    | none => return .error (.missing path)
  | none =>
    match ← discover (start.getD ".") with
    | .ok (some path) => loadFile path
    | .ok none => return .ok {}
    | .error error => return .error error

end ParseView.Config
