import ParseView.Json.Doc
import ParseView.Text.Quoted

/-!
# Why a document is not the record that was wanted
-/

namespace ParseView.Json

/-- A value that stands where another kind of value was wanted. -/
inductive Found where
  | null
  | boolean (b : Bool)
  | integer (n : Int)
  | double (x : Binary64)
  | text (s : String)
  | sequence
  | map
deriving DecidableEq, Repr

def Found.message : Found → String
  | .null => "null"
  | .boolean b => "boolean `" ++ toString b ++ "`"
  | .integer n => "integer `" ++ toString n ++ "`"
  | .double x => "floating point `" ++ String.ofList x.interchangeText ++ "`"
  | .text s => "string " ++ Text.quoted s
  | .sequence => "sequence"
  | .map => "map"

inductive Refusal where
  | malformed (cause : Cause)
  | invalidType (found : Found) (wanted : String)
  | invalidValue (found : Found) (wanted : String)
  | invalidLength (length : Nat) (wanted : String)
  | missingField (name : String)
  | duplicateField (name : String)
  | unknownVariant (name : String) (variants : List String)
  /-- None of the forms of a value fits. -/
  | noAlternative (name : String)
deriving DecidableEq, Repr

/-- The names that were possible. -/
def expectedNames : List String → String
  | [] => "there are no variants"
  | [a] => "expected `" ++ a ++ "`"
  | [a, b] => "expected `" ++ a ++ "` or `" ++ b ++ "`"
  | names => "expected one of " ++ ", ".intercalate (names.map fun name => "`" ++ name ++ "`")

def Refusal.message : Refusal → String
  | .malformed cause => cause.message
  | .invalidType found wanted => "invalid type: " ++ found.message ++ ", expected " ++ wanted
  | .invalidValue found wanted => "invalid value: " ++ found.message ++ ", expected " ++ wanted
  | .invalidLength length wanted => "invalid length " ++ toString length ++ ", expected " ++ wanted
  | .missingField name => "missing field `" ++ name ++ "`"
  | .duplicateField name => "duplicate field `" ++ name ++ "`"
  | .unknownVariant name variants => "unknown variant `" ++ name ++ "`, " ++ expectedNames variants
  | .noAlternative name => "data did not match any variant of untagged enum " ++ name

/-- What stands here, unless what stands here is at fault itself. The inside of a list or an object
does not matter: its kind is wrong already. -/
def Doc.found : Doc → Except Refusal Found
  | .null => .ok .null
  | .bool b => .ok (.boolean b)
  | .number (.ok (.whole n)) => .ok (.integer n.val)
  | .number (.ok (.double x)) => .ok (.double x)
  | .string (.ok s) => .ok (.text s)
  | .array _ _ => .ok .sequence
  | .object _ _ => .ok .map
  | .number (.error fault) | .string (.error fault) => .error (.malformed fault.cause)
  | .broken _ stop | .missing stop => .error (.malformed stop.wanted.cause)

/-- Refuses a value of the wrong kind. -/
def Doc.unexpected {α : Type} (doc : Doc) (wanted : String) : Except Refusal α := do
  let found ← doc.found
  throw (.invalidType found wanted)

/-- Passes over a value that nobody wants: its text must be in order all the same. -/
def Doc.skim : Doc → Except Refusal Unit
  | .array _ (.cut stop) | .object _ (.cut stop) | .broken _ stop | .missing stop =>
    .error (.malformed stop.skimmed)
  | _ => .ok ()

end ParseView.Json
