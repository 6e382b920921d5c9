import ParseView.Aria.Kind
import ParseView.Aria.Numeric
import ParseView.Number.Layout
import ParseView.Text.Case
import ParseView.Text.Quoted
import ParseView.Text.Split

/-!
# Rules for ARIA attributes

A rule says which values an attribute takes, and what to tell those who gave it another one.
-/

namespace ParseView.Aria

/-- A value of an attribute that is known without running anything. -/
inductive AttributeValue where
  | undefined
  | boolean (b : Bool)
  | text (s : String)
  | number (x : Binary64)
deriving DecidableEq, Repr

def AttributeValue.display : AttributeValue → String
  | .undefined => "undefined"
  | .boolean b => toString b
  | .text s => Text.quoted s
  | .number x => String.ofList x.plainText

structure Rule where
  kind : Kind
  /-- The tokens that are allowed, in small letters. -/
  allowed : Option (List String)
  allowUndefined : Bool
  /-- Are true and false allowed besides the tokens? -/
  allowBooleans : Bool
deriving DecidableEq, Repr

namespace Rule

/-- Is a token allowed, whatever its case? -/
def allowsToken (rule : Rule) (token : List Char) : Bool :=
  rule.allowed.any fun allowed => allowed.contains (String.ofList (Text.lowercase token))

def acceptsText (rule : Rule) (s : String) : Bool :=
  match rule.kind with
  | .boolean => false
  | .string | .id | .idList => true
  | .tristate => s == "mixed"
  | .integer | .number => isNumeric s.toList
  | .token => rule.allowsToken s.toList
  | .tokenList => (Text.splitAt ' ' s.toList).all rule.allowsToken

def accepts (rule : Rule) : AttributeValue → Bool
  | .undefined => rule.allowUndefined
  | .boolean _ =>
    match rule.kind with
    | .boolean | .tristate => true
    | .token => rule.allowBooleans
    | _ => false
  | .number x =>
    match rule.kind with
    | .integer | .number => !x.isNaN
    | _ => false
  | .text s => rule.acceptsText s

/-- Everything that a token can be. -/
def permitted (rule : Rule) : List String :=
  rule.allowed.getD [] ++ (if rule.allowBooleans then ["true", "false"] else [])

def permittedText (rule : Rule) : String := ", ".intercalate rule.permitted

/-- What a value of the attribute `name` should be. -/
def expectation (rule : Rule) (name : String) : String :=
  "The value for " ++ name ++ " must be " ++
    match rule.kind with
    | .tristate => "a boolean or the string \"mixed\"."
    | .token => "a single token from the following: " ++ rule.permittedText ++ "."
    | .tokenList => "a list of one or more tokens from the following: " ++ rule.permittedText ++ "."
    | .idList => "a list of strings that represent DOM element IDs (idlist)"
    | .id => "a string that represents a DOM element ID"
    | kind => "a " ++ kind.tag ++ "."

end Rule

end ParseView.Aria
