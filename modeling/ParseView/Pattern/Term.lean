/-!
# Patterns as they are written

The syntax tree of a pattern. Flags stay where they were written; what they mean for the terms
behind them is settled when the pattern is resolved.
-/

namespace ParseView.Pattern

inductive Flag where
  | ignoreCase
  | multiLine
  | dotAll
  | swapGreed
  | unicode
  | crlf
  | verbose
deriving DecidableEq, Repr

/-- Flags in the order in which they are set or cleared. -/
abbrev FlagChanges := List (Flag × Bool)

inductive Assertion where
  | lineStart
  | lineEnd
  | wordBoundary (negated : Bool)
deriving DecidableEq, Repr

/-- A member of a class: a range, of one character perhaps, or a class of its own. -/
inductive ClassItem where
  | range (low high : Char)
  | nested (negated : Bool) (items : List ClassItem)
deriving Repr

inductive Term where
  | empty
  | literal (c : Char)
  | dot
  | assertion (a : Assertion)
  | bracket (negated : Bool) (items : List ClassItem)
  | flags (changes : FlagChanges)
  | capture (body : Term)
  | group (changes : FlagChanges) (body : Term)
  | repetition (body : Term) (least : Nat) (most : Option Nat) (isLazy : Bool)
  | concat (parts : List Term)
  | alternation (branches : List Term)
deriving Repr, Inhabited

namespace Term

/-- The term for a run of terms. -/
def ofParts : List Term → Term
  | [] => .empty
  | [part] => part
  | parts => .concat parts

/-- The term for a choice that ends with `last`. -/
def ofBranches (earlier : List Term) (last : Term) : Term :=
  if earlier.isEmpty then last else .alternation (earlier ++ [last])

/-- Neither nothing nor a change of flags can be repeated. -/
def isRepeatable : Term → Bool
  | .empty | .flags _ => false
  | _ => true

end Term

mutual

/-- Levels of nesting of a member of a class. -/
def ClassItem.depth : ClassItem → Nat
  | .range _ _ => 0
  | .nested _ items => 1 + (if items.length > 1 then 1 else 0) + ClassItem.depths items

def ClassItem.depths : List ClassItem → Nat
  | [] => 0
  | item :: rest => max (ClassItem.depth item) (ClassItem.depths rest)

end

mutual

/-- Levels of nesting: groups, repetitions, classes, and terms and branches side by side. -/
def Term.depth : Term → Nat
  | .empty | .literal _ | .dot | .assertion _ | .flags _ => 0
  | .bracket _ items => 1 + (if items.length > 1 then 1 else 0) + ClassItem.depths items
  | .capture body => 1 + Term.depth body
  | .group _ body => 1 + Term.depth body
  | .repetition body _ _ _ => 1 + Term.depth body
  | .concat parts => 1 + Term.depths parts
  | .alternation branches => 1 + Term.depths branches

def Term.depths : List Term → Nat
  | [] => 0
  | part :: rest => max (Term.depth part) (Term.depths rest)

end

/-- The deepest nesting that is accepted. -/
def depthLimit : Nat := 250

end ParseView.Pattern
