import ParseView.Json.Doc

/-!
# Writing a value

Values are written without any blank, each in front of what comes behind it.
-/

namespace ParseView.Json

mutual

/-- Writes a value in front of `rest`. -/
def Value.write : Value → List Char → List Char
  | .null, rest => 'n' :: 'u' :: 'l' :: 'l' :: rest
  | .bool true, rest => 't' :: 'r' :: 'u' :: 'e' :: rest
  | .bool false, rest => 'f' :: 'a' :: 'l' :: 's' :: 'e' :: rest
  | .number n, rest => n.text ++ rest
  | .string s, rest => writeString s.toList rest
  | .array [], rest => '[' :: ']' :: rest
  | .array (item :: items), rest => '[' :: Value.write item (Value.writeItems items rest)
  | .object [], rest => '{' :: '}' :: rest
  | .object ((name, value) :: fields), rest =>
    '{' :: writeString name.toList (':' :: Value.write value (Value.writeFields fields rest))

/-- Writes the items after the first one, and the closing bracket. -/
def Value.writeItems : List Value → List Char → List Char
  | [], rest => ']' :: rest
  | item :: items, rest => ',' :: Value.write item (Value.writeItems items rest)

/-- Writes the fields after the first one, and the closing brace. -/
def Value.writeFields : List (String × Value) → List Char → List Char
  | [], rest => '}' :: rest
  | (name, value) :: fields, rest =>
    ',' :: writeString name.toList (':' :: Value.write value (Value.writeFields fields rest))

end

/-- The text of a value. -/
def Value.text (value : Value) : String := String.ofList (value.write [])

/-! ## Values of records -/

namespace Value

variable {α : Type}

def ofUInt32 (n : UInt32) : Value := .number (.ofUInt32 n)

/-- What is absent is null. -/
def nullable (write : α → Value) : Option α → Value
  | none => .null
  | some x => write x

def listOf (write : α → Value) (xs : List α) : Value := .array (xs.map write)

/-- A field that is left out when its value is absent. -/
def present (name : String) (write : α → Value) : Option α → Fields Value
  | none => []
  | some x => [(name, write x)]

end Value

end ParseView.Json
