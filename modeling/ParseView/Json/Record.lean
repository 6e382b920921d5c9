import ParseView.Json.Reader
import ParseView.Json.Refusal

/-!
# Reading records

A record is read from an object, whose unknown fields are passed over, or from a list of its fields
in their order. Fields are read in the order of the text and the first fault is reported; only when
the object closes are missing fields looked for, in the order in which the record declares them.
-/

namespace ParseView.Json

/-- Reads a value of one kind from a document. -/
abbrev Reader (α : Type) := Doc → Except Refusal α

namespace Reader

def text : Reader String
  | .string (.ok s) => .ok s
  | doc => doc.unexpected "a string"

def boolean : Reader Bool
  | .bool b => .ok b
  | doc => doc.unexpected "a boolean"

/-- A whole number below `bound`, for which `wanted` is the name of its kind. -/
def naturalBelow (bound : Nat) (wanted : String) : Reader Nat
  | .number (.ok (.whole n)) =>
    if 0 ≤ n.val ∧ n.val < bound then .ok n.val.toNat
    else .error (.invalidValue (.integer n.val) wanted)
  | doc => doc.unexpected wanted

def uint32 : Reader UInt32 := fun doc => (naturalBelow 0x100000000 "u32" doc).map UInt32.ofNat

def uint8 : Reader UInt8 := fun doc => (naturalBelow 0x100 "u8" doc).map UInt8.ofNat

/-- Null, or a value. -/
def nullable {α : Type} (read : Reader α) : Reader (Option α)
  | .null => .ok none
  | .broken 'n' stop => .error (.malformed stop.wanted.cause)
  | doc => (read doc).map some

/-- What is left of a list or an object when all its elements have been read. -/
def atEnd : Ending → Except Refusal Unit
  | .closed _ => .ok ()
  | .cut stop => .error (.malformed stop.wanted.cause)

def listOf {α : Type} (read : Reader α) : Reader (List α)
  | .array items ending => do
    let values ← items.mapM read
    atEnd ending
    return values
  | doc => doc.unexpected "a sequence"

/-- The value of a name, given the names that there are. -/
def variantNamed {α : Type} (variants : List (String × α)) (name : String) : Except Refusal α :=
  match variants.lookup name with
  | some value => .ok value
  | none => .error (.unknownVariant name (variants.map (·.1)))

/-- A name where an object begins without a key. -/
def variantName (unread : List Char) : Except Refusal Unit :=
  (readChars unread).root.unexpected "variant identifier"

/-- The end of an object that holds a single member. -/
def afterVariant : List (Key × Doc) → Ending → Except Refusal Unit
  | [], .closed _ => .ok ()
  | [], .cut stop =>
    .error (.malformed (if stop.wanted.cause = .endOfObject then .endOfObject else .expectedValue))
  | _ :: _, _ => .error (.malformed .expectedValue)

/-- One of several names, or an object with the name as its only key and null as its value. -/
def oneOf {α : Type} (variants : List (String × α)) : Reader α
  | .string (.ok name) => variantNamed variants name
  | .string (.error fault) => .error (.malformed fault.cause)
  | .missing stop => .error (.malformed stop.wanted.cause)
  | .object ((key, doc) :: members) ending => do
    let name ← key.mapError fun fault => Refusal.malformed fault.cause
    let value ← variantNamed variants name
    match doc with
    | .null => afterVariant members ending
    | doc => doc.unexpected "unit"
    return value
  | .object [] (.closed _) => .error (.malformed .expectedValue)
  | .object [] (.cut stop) =>
    match stop.wanted.cause with
    | .endOfObject => .error (.malformed .endOfValue)
    | .keyNotString => do
      variantName stop.wanted.place.unread
      throw (.malformed .expectedValue)
    | cause => .error (.malformed cause)
  | _ => .error (.malformed .expectedValue)

end Reader

/-! ## Records -/

/-- Whether a field may be left out. A nullable one may, but not from a list of the fields; one with
a default may be left out of both. -/
inductive Presence where
  | required
  | nullable
  | defaulted
deriving DecidableEq, Repr

structure FieldSpec where
  name : String
  presence : Presence
  check : Doc → Except Refusal Unit

/-- The documents of a record's fields. -/
abbrev FieldDocs := List (String × Doc)

/-- How a record is read: its fields as they are declared, and how it is made from the documents of
those that are there, which have been checked. -/
structure Record (α : Type) where
  fields : List FieldSpec
  build : FieldDocs → Except Refusal α

namespace Record

variable {α β : Type}

instance : Functor Record where
  map f record := ⟨record.fields, fun docs => (record.build docs).map f⟩

instance : Pure Record where
  pure value := ⟨[], fun _ => .ok value⟩

instance : Seq Record where
  seq first second := ⟨first.fields ++ (second ()).fields, fun docs => do
    let f ← first.build docs
    let x ← (second ()).build docs
    return f x⟩

def checkOf (read : Reader α) (doc : Doc) : Except Refusal Unit := (read doc).map fun _ => ()

/-- A field that must be there. -/
def field (name : String) (read : Reader α) : Record α where
  fields := [⟨name, .required, checkOf read⟩]
  build docs :=
    match docs.lookup name with
    | some doc => read doc
    | none => .error (.missingField name)

/-- A field that is absent when it is null or left out. -/
def nullable (name : String) (read : Reader α) : Record (Option α) where
  fields := [⟨name, .nullable, checkOf (Reader.nullable read)⟩]
  build docs :=
    match docs.lookup name with
    | some doc => Reader.nullable read doc
    | none => .ok none

/-- A field that has a value when it is left out. -/
def defaulted (name : String) (read : Reader α) (default : α) : Record α where
  fields := [⟨name, .defaulted, checkOf read⟩]
  build docs :=
    match docs.lookup name with
    | some doc => read doc
    | none => .ok default

/-- Reads the members of an object in their order. -/
def scanMembers (fields : List FieldSpec) (docs : FieldDocs) :
    List (Key × Doc) → Except Refusal FieldDocs
  | [] => .ok docs
  | (key, doc) :: members => do
    let name ← key.mapError fun fault => Refusal.malformed fault.cause
    match fields.find? (·.name = name) with
    | none =>
      doc.skim
      scanMembers fields docs members
    | some field =>
      if (docs.lookup name).isSome then throw (.duplicateField name)
      field.check doc
      scanMembers fields ((name, doc) :: docs) members

/-- The first required field that is not there. -/
def missing? (fields : List FieldSpec) (docs : FieldDocs) : Option String :=
  (fields.find? fun field =>
    field.presence = .required ∧ (docs.lookup field.name).isNone).map (·.name)

/-- What may follow the last field in a list of fields. -/
def surplus : List Doc → Ending → Except Refusal Unit
  | [], .closed _ => .ok ()
  | [], .cut stop =>
    match stop.wanted.cause with
    | .endOfList => .error (.malformed .endOfList)
    | .trailingComma => .error (.malformed .trailingComma)
    | _ => .error (.malformed .trailingCharacters)
  | _ :: _, _ => .error (.malformed .trailingCharacters)

/-- Reads the items of a list as fields, of which `count` have been read. -/
def scanItems (wanted : String) (count : Nat) (docs : FieldDocs) :
    List FieldSpec → List Doc → Ending → Except Refusal FieldDocs
  | [], items, ending => do
    surplus items ending
    return docs
  | field :: fields, doc :: items, ending => do
    field.check doc
    scanItems wanted (count + 1) ((field.name, doc) :: docs) fields items ending
  | field :: fields, [], ending =>
    match ending with
    | .cut stop => .error (.malformed stop.wanted.cause)
    | .closed _ =>
      if field.presence = .defaulted then scanItems wanted (count + 1) docs fields [] ending
      else .error (.invalidLength count wanted)

/-- The name of a record in errors about the number of its fields. -/
def lengthName (name : String) (count : Nat) : String :=
  name ++ " with " ++ toString count ++ (if count = 1 then " element" else " elements")

/-- Reads a record that errors call by this name. -/
def read (name : String) (record : Record α) : Reader α
  | .object members ending => do
    let docs ← scanMembers record.fields [] members
    Reader.atEnd ending
    match missing? record.fields docs with
    | some missing => throw (.missingField missing)
    | none => record.build docs
  | .array items ending => do
    let docs ← scanItems (lengthName name record.fields.length) 0 [] record.fields items ending
    record.build docs
  | doc => doc.unexpected name

end Record

/-- Reads a whole text. -/
def readText {α : Type} (read : Reader α) (text : String) : Except Refusal α := do
  let document := Document.read text
  let value ← read document.root
  match document.trailingFault? with
  | some fault => throw (.malformed fault.cause)
  | none => return value

end ParseView.Json
