import ParseView.Json.Writer

/-!
# Writing a value for readers

Every item and every field has a line of its own, two blanks further in than what is around it.
-/

namespace ParseView.Json

def newLine (depth : Nat) : List Char := '\n' :: List.replicate (2 * depth) ' '

mutual

/-- A value that lies `depth` lists and objects deep. -/
def Value.prettyAt (depth : Nat) : Value → List Char
  | .array [] => ['[', ']']
  | .array (item :: items) =>
    '[' :: newLine (depth + 1) ++ Value.prettyAt (depth + 1) item
      ++ Value.prettyItems depth items ++ newLine depth ++ [']']
  | .object [] => ['{', '}']
  | .object ((name, value) :: fields) =>
    '{' :: newLine (depth + 1) ++ writeString name.toList [':', ' ']
      ++ Value.prettyAt (depth + 1) value
      ++ Value.prettyFields depth fields ++ newLine depth ++ ['}']
  | value => value.write []

/-- The items after the first one of a list. -/
def Value.prettyItems (depth : Nat) : List Value → List Char
  | [] => []
  | item :: items =>
    ',' :: newLine (depth + 1) ++ Value.prettyAt (depth + 1) item ++ Value.prettyItems depth items

/-- The fields after the first one of an object. -/
def Value.prettyFields (depth : Nat) : List (String × Value) → List Char
  | [] => []
  | (name, value) :: fields =>
    ',' :: newLine (depth + 1) ++ writeString name.toList [':', ' ']
      ++ Value.prettyAt (depth + 1) value ++ Value.prettyFields depth fields

end

def Value.prettyText (value : Value) : String := String.ofList (value.prettyAt 0)

end ParseView.Json
