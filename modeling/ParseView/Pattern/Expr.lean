import ParseView.Pattern.CharSet
import ParseView.Pattern.Term

/-!
# Patterns as they are meant

A pattern with its flags settled: sets of characters, conditions on a place, and the four ways of
putting patterns together. Where the flag for Unicode is off, classes may hold ASCII characters
only, since everything else would match parts of characters.
-/

namespace ParseView.Pattern

/-- A condition on the characters before and behind a place. -/
inductive Look where
  | textStart
  | textEnd
  | lineStart
  | lineEnd
  | lineStartCrlf
  | lineEndCrlf
  | asciiWordBoundary (negated : Bool)
deriving DecidableEq, Repr

inductive Expr where
  | empty
  | chars (set : CharSet)
  | look (condition : Look)
  | capture (body : Expr)
  | concat (a b : Expr)
  | choice (a b : Expr)
  | repetition (body : Expr) (least : Nat) (most : Option Nat)
deriving DecidableEq, Repr, Inhabited

/-- The flags in force at a place of a pattern. -/
structure Mode where
  ignoreCase : Bool := false
  multiLine : Bool := false
  dotAll : Bool := false
  crlf : Bool := false
  unicode : Bool := true
  swapGreed : Bool := false
deriving DecidableEq, Repr

def Mode.change (mode : Mode) : Flag × Bool → Mode
  | (.ignoreCase, isOn) => { mode with ignoreCase := isOn }
  | (.multiLine, isOn) => { mode with multiLine := isOn }
  | (.dotAll, isOn) => { mode with dotAll := isOn }
  | (.crlf, isOn) => { mode with crlf := isOn }
  | (.unicode, isOn) => { mode with unicode := isOn }
  | (.swapGreed, isOn) => { mode with swapGreed := isOn }
  | (.verbose, _) => mode

def Mode.changeAll (mode : Mode) (changes : FlagChanges) : Mode := changes.foldl Mode.change mode

/-- A set as the mode has it: closed under case if case is ignored. -/
def Mode.fold (mode : Mode) (set : CharSet) : CharSet :=
  if !mode.ignoreCase then set
  else if mode.unicode then .folded set
  else .foldedAscii set

/-- One character. -/
def Mode.literal (mode : Mode) (c : Char) : CharSet :=
  if mode.unicode ∨ c.toNat < 0x80 then mode.fold (.single c) else .single c

def Mode.look (mode : Mode) : Assertion → Option Look
  | .lineStart =>
    some (if !mode.multiLine then .textStart else if mode.crlf then .lineStartCrlf else .lineStart)
  | .lineEnd =>
    some (if !mode.multiLine then .textEnd else if mode.crlf then .lineEndCrlf else .lineEnd)
  | .wordBoundary negated => if mode.unicode then none else some (.asciiWordBoundary negated)

/-- Any character, or any but the ends of lines. -/
def Mode.dot (mode : Mode) : Option CharSet :=
  if !mode.unicode then none
  else if mode.dotAll then some (.complement .empty)
  else if mode.crlf then some (.complement (.union (.range 10 10) (.range 13 13)))
  else some (.complement (.range 10 10))

mutual

/-- The set of a class. It is closed under case before its complement is taken. -/
def Mode.bracket (mode : Mode) (negated : Bool) (items : List ClassItem) : Option CharSet := do
  let set := mode.fold (← Mode.items mode items)
  if !negated then some set
  else if mode.unicode then some (.complement set)
  else none

def Mode.items (mode : Mode) : List ClassItem → Option CharSet
  | [] => some .empty
  | item :: rest => do
    let first ← Mode.item mode item
    let others ← Mode.items mode rest
    return .union first others

def Mode.item (mode : Mode) : ClassItem → Option CharSet
  | .range low high =>
    if mode.unicode ∨ (low.toNat < 0x80 ∧ high.toNat < 0x80) then some (.range low.toNat high.toNat)
    else none
  | .nested negated items => Mode.bracket mode negated items

end

mutual

/-- The meaning of a term, and the mode behind it: a change of flags lasts to the end of the
group that it stands in. -/
def Term.resolve (mode : Mode) : Term → Option (Expr × Mode)
  | .empty => some (.empty, mode)
  | .literal c => some (.chars (mode.literal c), mode)
  | .dot => mode.dot.map fun set => (.chars set, mode)
  | .assertion a => (mode.look a).map fun look => (.look look, mode)
  | .bracket negated items => (mode.bracket negated items).map fun set => (.chars set, mode)
  | .flags changes => some (.empty, mode.changeAll changes)
  | .capture body => (Term.resolve mode body).map fun (e, _) => (.capture e, mode)
  | .group changes body => (Term.resolve (mode.changeAll changes) body).map fun (e, _) => (e, mode)
  | .repetition body least most _ =>
    (Term.resolve mode body).map fun (e, mode) => (.repetition e least most, mode)
  | .concat parts => Term.resolveAll mode parts
  | .alternation branches => Term.resolveAny mode branches

def Term.resolveAll (mode : Mode) : List Term → Option (Expr × Mode)
  | [] => some (.empty, mode)
  | part :: rest => do
    let (first, mode) ← Term.resolve mode part
    if rest.isEmpty then return (first, mode)
    let (others, mode) ← Term.resolveAll mode rest
    return (.concat first others, mode)

def Term.resolveAny (mode : Mode) : List Term → Option (Expr × Mode)
  | [] => some (.chars .empty, mode)
  | branch :: rest => do
    let (first, mode) ← Term.resolve mode branch
    if rest.isEmpty then return (first, mode)
    let (others, mode) ← Term.resolveAny mode rest
    return (.choice first others, mode)

end

end ParseView.Pattern
