import ParseView.Tools.Run

/-!
# The program

The tools on a real disk.
-/

namespace ParseView

/-- Why the system refused an operation. -/
def FileError.ofSystem : IO.Error → FileError
  | .noFileOrDirectory _ _ _ => .notFound
  | .alreadyExists _ _ _ => .alreadyExists
  | .inappropriateType _ 20 _ => .notDirectory
  | .inappropriateType _ 21 _ => .isDirectory
  | error => .other (toString error)

/-- What an operation of the system comes to. -/
def attempt {α : Type} (action : IO α) : IO (Except FileError α) := do
  try
    return .ok (← action)
  catch error =>
    return .error (.ofSystem error)

def readTextFile (path : String) : IO (Except FileError String) := do
  match ← attempt (IO.FS.readBinFile ⟨path⟩) with
  | .ok bytes => return (String.fromUTF8? bytes).elim (.error .notText) .ok
  | .error error => return .error error

/-- A directory is what a slash can follow. -/
def kindOfPath? (path : String) : IO (Option FileKind) := do
  match ← attempt (IO.FS.realPath ⟨path⟩) with
  | .error _ => return none
  | .ok _ =>
    match ← attempt (IO.FS.realPath ⟨path ++ "/."⟩) with
    | .ok _ => return some .directory
    | .error _ => return some .file

instance : MonadFiles IO where
  kind? := kindOfPath?
  resolve path := do
    return (← attempt (IO.FS.realPath ⟨path⟩)).map fun path => Path.steps path.toString
  readText := readTextFile
  makeDirectory path := attempt (IO.FS.createDir ⟨path⟩)
  writeText path text := attempt (IO.FS.writeFile ⟨path⟩ text)

end ParseView

def main (arguments : List String) : IO UInt32 := do
  let outcome ← ParseView.Tools.run (m := IO) arguments
  IO.print outcome.output
  IO.eprint outcome.errors
  return outcome.code.toUInt32
