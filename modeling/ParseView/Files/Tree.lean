import ParseView.Files.Basic

/-!
# File trees

A directory holds named files and directories. Paths are followed step by step, from the top or from
the directory that one works in.
-/

namespace ParseView

inductive FileTree where
  | file (bytes : ByteArray)
  | directory (entries : List (String × FileTree))
deriving Inhabited

namespace FileTree

/-- What lies below at the end of steps that are all names. -/
def lookup : List String → FileTree → Option FileTree
  | [], tree => some tree
  | _ :: _, .file _ => none
  | name :: rest, .directory entries =>
    match entries.lookup name with
    | some tree => tree.lookup rest
    | none => none

/-- Sets what lies below an entry. -/
def setEntry (name : String) (tree : FileTree) : List (String × FileTree) → List (String × FileTree)
  | [] => [(name, tree)]
  | (other, old) :: rest =>
    if other = name then (name, tree) :: rest else (other, old) :: setEntry name tree rest

/-- Puts a tree at the end of steps that are all names, making directories on the way. -/
def put (tree : FileTree) : List String → FileTree → FileTree
  | [], _ => tree
  | name :: rest, old =>
    let entries := match old with
      | .file _ => []
      | .directory entries => entries
    .directory (setEntry name (put tree rest ((entries.lookup name).getD (.directory []))) entries)

end FileTree

/-- A tree of files and the steps to the directory that one works in. -/
structure Disk where
  root : FileTree
  workingSteps : List String
deriving Inhabited

namespace Disk

/-- The parts of a path that are followed. A slash at the end asks for a directory. -/
def parts (path : String) : List String :=
  let parts := ((Text.splitAt '/' path.toList).filter (· ≠ [])).map String.ofList
  if path.toList.getLast? = some '/' then parts ++ ["."] else parts

/-- Follows parts from where the steps `here` lead, the last step first. -/
def follow (disk : Disk) (here : List String) : List String → Except FileError (List String)
  | [] => .ok here
  | part :: rest =>
    match disk.root.lookup here.reverse with
    | some (.directory entries) =>
      if part = "." then disk.follow here rest
      else if part = ".." then disk.follow here.tail rest
      else if (entries.lookup part).isSome then disk.follow (part :: here) rest
      else .error .notFound
    | some (.file _) => .error .notDirectory
    | none => .error .notFound

/-- Where following a path begins, the last step first. -/
def startOf (disk : Disk) (path : String) : List String :=
  if Path.isAbsolute path then [] else disk.workingSteps.reverse

def resolve (disk : Disk) (path : String) : Except FileError (List String) :=
  if path.isEmpty then .error .notFound
  else (disk.follow (disk.startOf path) (parts path)).map List.reverse

/-- What a path leads to. -/
def find (disk : Disk) (path : String) : Except FileError FileTree := do
  let steps ← disk.resolve path
  match disk.root.lookup steps with
  | some tree => return tree
  | none => throw .notFound

def kindOf : FileTree → FileKind
  | .file _ => .file
  | .directory _ => .directory

def kind? (disk : Disk) (path : String) : Option FileKind := (disk.find path).toOption.map kindOf

def readText (disk : Disk) (path : String) : Except FileError String := do
  match ← disk.find path with
  | .directory _ => throw .isDirectory
  | .file bytes =>
    match String.fromUTF8? bytes with
    | some text => return text
    | none => throw .notText

/-- The steps to the directory in which the end of a path lies, and the last part of the path. -/
def place (disk : Disk) (path : String) : Except FileError (List String × String) := do
  match (parts path).reverse with
  | [] => throw .notFound
  | last :: before =>
    let here ← disk.follow (disk.startOf path) before.reverse
    match disk.root.lookup here.reverse with
    | some (.directory _) => return (here.reverse, last)
    | some (.file _) => throw .notDirectory
    | none => throw .notFound

/-- A path without slashes at its end. -/
def dropSlashes (path : String) : String :=
  String.ofList (path.toList.reverse.dropWhile (· = '/')).reverse

def put (disk : Disk) (steps : List String) (tree : FileTree) : Disk :=
  { disk with root := FileTree.put tree steps disk.root }

def makeDirectory (disk : Disk) (path : String) : Except FileError Disk := do
  let bare := dropSlashes path
  if (disk.resolve bare).isOk then throw .alreadyExists
  let (steps, name) ← disk.place bare
  return disk.put (steps ++ [name]) (.directory [])

/-- A directory cannot be written, and neither can a path that asks for one. -/
def writeText (disk : Disk) (path text : String) : Except FileError Disk := do
  let bare := dropSlashes path
  if bare.isEmpty ∧ !path.isEmpty then throw .isDirectory
  let (steps, name) ← disk.place bare
  if bare ≠ path ∨ name = "." ∨ name = ".." then throw .isDirectory
  match disk.root.lookup (steps ++ [name]) with
  | some (.directory _) => throw .isDirectory
  | _ => return disk.put (steps ++ [name]) (.file text.toUTF8)

end Disk

/-- An operation that may change the disk; one that fails leaves it as it was. -/
def Disk.change (f : Disk → Except FileError Disk) : StateM Disk (Except FileError Unit) := do
  match f (← get) with
  | .ok disk =>
    set disk
    return .ok ()
  | .error error => return .error error

instance : MonadFiles (StateM Disk) where
  kind? path := return (← get).kind? path
  resolve path := return (← get).resolve path
  readText path := return (← get).readText path
  makeDirectory path := Disk.change (·.makeDirectory path)
  writeText path text := Disk.change (·.writeText path text)

end ParseView
