import ParseView.Path

/-!
# Files

What the library needs of a file system is a handful of operations. They work in any monad that has
them, so that everything built on them can run on a real disk and on a tree of files that is a value.
-/

namespace ParseView

/-- Why a file operation fails. -/
inductive FileError where
  | notFound
  | alreadyExists
  | notDirectory
  | isDirectory
  | notText
  | other (message : String)
deriving DecidableEq, Repr

def FileError.message : FileError → String
  | .notFound => "No such file or directory (os error 2)"
  | .alreadyExists => "File exists (os error 17)"
  | .notDirectory => "Not a directory (os error 20)"
  | .isDirectory => "Is a directory (os error 21)"
  | .notText => "stream did not contain valid UTF-8"
  | .other message => message

/-- What a path can lead to. -/
inductive FileKind where
  | file
  | directory
deriving DecidableEq, Repr

/-- Operations on files by their paths. -/
class MonadFiles (m : Type → Type) where
  /-- What a path leads to, if to anything. -/
  kind? : String → m (Option FileKind)
  /-- The steps from the top to where a path leads. -/
  resolve : String → m (Except FileError (List String))
  readText : String → m (Except FileError String)
  makeDirectory : String → m (Except FileError Unit)
  /-- Writes a file, in place of what was in it. -/
  writeText : String → String → m (Except FileError Unit)

namespace Files

variable {m : Type → Type} [Monad m] [MonadFiles m]

def isFile (path : String) : m Bool := return (← MonadFiles.kind? path) == some .file

def isDirectory (path : String) : m Bool := return (← MonadFiles.kind? path) == some .directory

/-- Makes a directory, unless it is there. -/
def ensureDirectory (path : String) : m (Except FileError Unit) := do
  match ← MonadFiles.makeDirectory path with
  | .ok () => return .ok ()
  | .error error => if ← isDirectory path then return .ok () else return .error error

/-- Makes the directory that steps lead to, given the last step first, and those around it. -/
def ensureSteps (pathOf : List String → String) : List String → m (Except FileError Unit)
  | [] => return .ok ()
  | step :: before => do
    let path := pathOf (step :: before).reverse
    match ← ensureDirectory path with
    | .error .notFound => do
      match ← ensureSteps pathOf before with
      | .ok () => ensureDirectory path
      | .error error => return .error error
    | outcome => return outcome

/-- Makes the directory in which a path lies. -/
def ensureParent (path : String) : m (Except FileError Unit) :=
  let pathOf := if Path.isAbsolute path then Path.absolute else "/".intercalate
  ensureSteps pathOf (Path.steps path).reverse.tail

end Files

end ParseView
