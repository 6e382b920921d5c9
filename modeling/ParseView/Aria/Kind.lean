/-!
# Types of ARIA attributes
-/

namespace ParseView.Aria

/-- What kind of value an attribute takes. -/
inductive Kind where
  | string
  | id
  | integer
  | number
  | boolean
  /-- True, false or mixed. -/
  | tristate
  | token
  | tokenList
  | idList
deriving DecidableEq, Repr

namespace Kind

def all : List Kind :=
  [string, id, integer, number, boolean, tristate, token, tokenList, idList]

/-- The name of the type in a table. -/
def tag : Kind → String
  | .string => "string"
  | .id => "id"
  | .integer => "integer"
  | .number => "number"
  | .boolean => "boolean"
  | .tristate => "tristate"
  | .token => "token"
  | .tokenList => "tokenlist"
  | .idList => "idlist"

/-- The name of the type in generated source. -/
def variant : Kind → String
  | .string => "String"
  | .id => "Id"
  | .integer => "Integer"
  | .number => "Number"
  | .boolean => "Boolean"
  | .tristate => "Tristate"
  | .token => "Token"
  | .tokenList => "TokenList"
  | .idList => "IdList"

def ofTag? (tag : String) : Option Kind := all.find? (·.tag = tag)

theorem ofTag?_tag (kind : Kind) : ofTag? kind.tag = some kind := by
  cases kind <;> rfl

end Kind

end ParseView.Aria
