import ParseView.Aria.Emit
import ParseView.Aria.Table
import ParseView.Config.Schema
import ParseView.Files.Basic
import ParseView.Tools.Arguments

/-!
# Running the tools

A run reads its arguments, works on files, and ends with an exit code and what it has to say.
-/

namespace ParseView.Tools

/-- How a run ends. -/
structure Outcome where
  code : UInt8
  output : String
  errors : String
deriving DecidableEq, Repr

/-- Why a command fails, with what it was about to do if that matters. -/
structure CommandError where
  message : String
  doing : Option String := none
deriving DecidableEq, Repr

/-- A failure as it is told: what was being done comes first, then why it failed. -/
def CommandError.text (error : CommandError) : String :=
  match error.doing with
  | none => "Error: " ++ error.message ++ "\n"
  | some doing => "Error: " ++ doing ++ "\n\nCaused by:\n    " ++ error.message ++ "\n"

def CommandError.ofFile (error : FileError) : CommandError := { message := error.message }

def CommandError.outOfDate (path : String) : CommandError where
  message := path ++ " is out of date; run `oxbind-devtools aria-table --output " ++ path ++ "`"

/-- What a command says when it has done its work. -/
abbrev Report := Except CommandError String

variable {m : Type → Type} [Monad m] [MonadFiles m]

/-- Writes a text to a file and makes the directory around it. -/
def writeInto (path text : String) (doing : Option String) (report : String) : m Report := do
  match ← Files.ensureParent path with
  | .error error => return .error (.ofFile error)
  | .ok () =>
    match ← MonadFiles.writeText path text with
    | .error error => return .error { message := error.message, doing := doing }
    | .ok () => return .ok report

/-- Compares a file with what it should hold. -/
def checkTable (path expected : String) : m Report := do
  match ← MonadFiles.readText path with
  | .error error => return .error (.ofFile error)
  | .ok text =>
    if text = expected then return .ok "✓ ARIA table is up to date\n"
    else return .error (.outOfDate path)

def runCommand : Command → m Report
  | .ariaTable output check => do
    match Aria.authoredTable.source with
    | .error error => return .error { message := error.message }
    | .ok source =>
      if check then checkTable (output.getD Aria.tablePath) source
      else
        match output with
        | some path => writeInto path source none ("✓ Generated ARIA table: " ++ path ++ "\n")
        | none => return .ok source
  | .schema none => return .ok "✓ Schema validation passed\n"
  | .schema (some path) =>
    writeInto path (Config.Schema.text ++ "\n") (some ("writing " ++ path))
      ("✓ Generated JSON Schema: " ++ path ++ "\n")

def versionText : String := "oxbind-devtools 0.0.4\n"

def helpText : String :=
  "Developer tooling for oxbind: generated tables and schemas\n\n"
    ++ "Usage: oxbind-devtools [OPTIONS] <COMMAND>\n\n"
    ++ "Commands:\n"
    ++ "  aria-table  Print, write or check the table of ARIA attributes\n"
    ++ "  schema      Check or write the schema of configurations\n"
    ++ "  help        Print this message\n\n"
    ++ "Options:\n"
    ++ "  -v, --verbose...     Say more\n"
    ++ "  -o, --output <PATH>  Write to a file\n"
    ++ "      --check          Only check that the file is up to date\n"
    ++ "  -h, --help           Print help\n"
    ++ "  -V, --version        Print version\n"

/-- Runs the program. -/
def run (arguments : List String) : m Outcome := do
  match readArguments arguments with
  | .version => return ⟨0, versionText, ""⟩
  | .help => return ⟨0, helpText, ""⟩
  | .misuse => return ⟨2, "", helpText⟩
  | .run command =>
    match ← runCommand command with
    | .ok report => return ⟨0, report, ""⟩
    | .error error => return ⟨1, "", error.text⟩

end ParseView.Tools
