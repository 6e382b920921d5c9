import ParseView.Text.Split

/-!
# Paths

Paths are texts with slashes between their parts. Empty parts and dots lead nowhere; the text of a
path is kept as it was given, for messages.
-/

namespace ParseView.Path

/-- Does the part name something, or at least the directory above? -/
def isStep (part : List Char) : Bool := part != [] && part != ['.']

/-- The parts of a path that lead somewhere. -/
def steps (path : String) : List String :=
  ((Text.splitAt '/' path.toList).filter isStep).map String.ofList

def isAbsolute (path : String) : Bool := path.toList.head? == some '/'

/-- The name of the file or directory that a path ends with. -/
def fileName? (path : String) : Option String :=
  match (steps path).getLast? with
  | some name => if name = ".." then none else some name
  | none => none

/-- The part of a text behind its last dot. -/
def afterLastDot? (name : List Char) : Option (List Char) :=
  if '.' ∈ name then some (name.reverse.takeWhile (· ≠ '.')).reverse else none

/-- What stands behind the last dot of the file name, unless the name begins with that dot. -/
def extension? (path : String) : Option String := do
  let name ← fileName? path
  let extension ← afterLastDot? name.toList
  if extension.length + 1 = name.length then none else some (String.ofList extension)

/-- The text of steps from the top. -/
def absolute (steps : List String) : String := "/" ++ "/".intercalate steps

end ParseView.Path
