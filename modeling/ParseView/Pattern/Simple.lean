import ParseView.Pattern.Expr
import ParseView.Pattern.Intervals

/-!
# Patterns in simplest form

A pattern is not compiled as it was written. Characters side by side run into one text, a choice
among single characters or among sets is a set, what all branches of a choice begin with is put
before the choice, and what matches empty text only is repeated at most once. The simplest form is
what a size is read off; matching goes by the pattern as it was resolved.
-/

namespace ParseView.Pattern

/-- A pattern put together from its simplest parts. Nothing is a concatenation without parts. -/
inductive Simple where
  /-- Characters one after the other, by their codes. -/
  | literal (codes : List Nat)
  | set (intervals : List Interval)
  | look (condition : Look)
  | capture (body : Simple)
  | repetition (body : Simple) (least : Nat) (most : Option Nat) (isLazy : Bool)
  | concat (parts : List Simple)
  | choice (branches : List Simple)
deriving Repr, Inhabited

namespace Simple

/-! ## Lengths -/

mutual

/-- The least length of what is matched. A set without characters has none, and neither has
anything that it is part of. -/
def leastLength? : Simple → Option Nat
  | .literal codes => some codes.length
  | .set intervals => if intervals.isEmpty then none else some 1
  | .look _ => some 0
  | .capture body => leastLength? body
  | .repetition body least _ _ => (leastLength? body).map (least * ·)
  | .concat parts => (leastLengths? parts).map List.sum
  | .choice branches => (leastLengths? branches).bind List.min?

def leastLengths? : List Simple → Option (List Nat)
  | [] => some []
  | first :: rest => do return (← leastLength? first) :: (← leastLengths? rest)

end

mutual

/-- The greatest length of what is matched, if there is one. -/
def greatestLength? : Simple → Option Nat
  | .literal codes => some codes.length
  | .set intervals => if intervals.isEmpty then none else some 1
  | .look _ => some 0
  | .capture body => greatestLength? body
  | .repetition body _ most _ => do return (← most) * (← greatestLength? body)
  | .concat parts => (greatestLengths? parts).map List.sum
  | .choice branches => (greatestLengths? branches).bind List.max?

def greatestLengths? : List Simple → Option (List Nat)
  | [] => some []
  | first :: rest => do return (← greatestLength? first) :: (← greatestLengths? rest)

end

/-- May it match empty text, as far as lengths tell? -/
def mayBeEmpty (s : Simple) : Bool := (s.leastLength?.getD 0) == 0

/-! ## Sets and repetitions -/

/-- A set of one character is that character. -/
def ofSet : List Interval → Simple
  | [(low, high)] => if low = high then .literal [low] else .set [(low, high)]
  | intervals => .set intervals

/-- What matches empty text only does so once at most. -/
def repeated (body : Simple) (least : Nat) (most : Option Nat) (isLazy : Bool) : Simple :=
  let (least, most) :=
    if body.greatestLength? = some 0 then (min least 1, some (min (most.getD 1) 1))
    else (least, most)
  match least, most with
  | 0, some 0 => .concat []
  | 1, some 1 => body
  | least, most => .repetition body least most isLazy

/-! ## Concatenations -/

/-- What stands side by side in a pattern. -/
def parts : Simple → List Simple
  | .concat parts => parts
  | part => [part]

def joinLiterals : List Simple → List Simple
  | [] => []
  | .literal codes :: rest =>
    match joinLiterals rest with
    | .literal more :: rest => .literal (codes ++ more) :: rest
    | rest => .literal codes :: rest
  | part :: rest => part :: joinLiterals rest

def ofParts (parts : List Simple) : Simple :=
  match joinLiterals (parts.flatMap Simple.parts) with
  | [part] => part
  | parts => .concat parts

/-! ## Choices -/

mutual

/-- Are the patterns written alike? Captures never are: each has a number of its own. -/
def isLike : Simple → Simple → Bool
  | .literal a, .literal b => a == b
  | .set a, .set b => a == b
  | .look a, .look b => a == b
  | .repetition a least most isLazy, .repetition b least' most' isLazy' =>
    isLike a b && least == least' && most == most' && isLazy == isLazy'
  | .concat a, .concat b => areLike a b
  | .choice a, .choice b => areLike a b
  | _, _ => false

def areLike : List Simple → List Simple → Bool
  | [], [] => true
  | a :: as, b :: bs => isLike a b && areLike as bs
  | _, _ => false

end

/-- The branches that a pattern is a choice among. -/
def branches : Simple → List Simple
  | .choice branches => branches
  | branch => [branch]

def singleCode? : Simple → Option Nat
  | .literal [code] => some code
  | _ => none

def intervals? : Simple → Option (List Interval)
  | .set intervals => some intervals
  | _ => none

/-- A choice whose branches have nothing in common. Among single characters it is a set of them, and
among sets the set of all their characters. -/
def gather (choices : List Simple) : Simple :=
  match choices.flatMap Simple.branches with
  | [] => .set []
  | [branch] => branch
  | branches =>
    match branches.mapM singleCode?, branches.mapM intervals? with
    | some codes, _ => ofSet (normalizeIntervals (codes.map fun code => (code, code)))
    | none, some sets => ofSet (normalizeIntervals sets.flatten)
    | none, none => .choice branches

/-- The parts with which both lists begin. -/
def sharedParts : List Simple → List Simple → List Simple
  | a :: as, b :: bs => if isLike a b then a :: sharedParts as bs else []
  | _, _ => []

/-- The parts with which all branches begin, none of which is taken apart for that. -/
def sharedFront : List Simple → List Simple
  | .concat parts :: rest =>
    rest.foldl (fun shared branch =>
      match branch with
      | .concat parts => sharedParts shared parts
      | _ => []) parts
  | _ => []

/-- What all branches begin with is put before the choice among the rest of them. -/
def ofBranches (choices : List Simple) : Simple :=
  match gather choices with
  | .choice branches =>
    match sharedFront branches with
    | [] => .choice branches
    | front =>
      ofParts (front ++ [gather (branches.map fun branch => ofParts (branch.parts.drop front.length))])
  | other => other

end Simple

/-! ## Terms -/

mutual

/-- The simplest form of a term, and the mode behind it. -/
def Term.simplify (mode : Mode) : Term → Option (Simple × Mode)
  | .empty => some (.concat [], mode)
  | .literal c => some (.ofSet (mode.literal c).intervals, mode)
  | .dot => mode.dot.map fun set => (.ofSet set.intervals, mode)
  | .assertion a => (mode.look a).map fun look => (.look look, mode)
  | .bracket negated items =>
    (mode.bracket negated items).map fun set => (.ofSet set.intervals, mode)
  | .flags changes => some (.concat [], mode.changeAll changes)
  | .capture body => (Term.simplify mode body).map fun (s, _) => (.capture s, mode)
  | .group changes body => (Term.simplify (mode.changeAll changes) body).map fun (s, _) => (s, mode)
  | .repetition body least most isLazy =>
    (Term.simplify mode body).map fun (s, mode) =>
      (s.repeated least most (isLazy != mode.swapGreed), mode)
  | .concat parts =>
    (Term.simplifyAll mode parts).map fun (parts, mode) => (.ofParts parts, mode)
  | .alternation branches =>
    (Term.simplifyAll mode branches).map fun (branches, mode) => (.ofBranches branches, mode)

def Term.simplifyAll (mode : Mode) : List Term → Option (List Simple × Mode)
  | [] => some ([], mode)
  | first :: rest => do
    let (first, mode) ← Term.simplify mode first
    let (rest, mode) ← Term.simplifyAll mode rest
    return (first :: rest, mode)

end

/-- Two outcomes with the same mode behind them: there is none, or both leave that mode. -/
theorem outcome_cases {α β : Type} {a : Option (α × Mode)} {b : Option (β × Mode)}
    (h : a.map (·.2) = b.map (·.2)) :
    (a = none ∧ b = none) ∨ ∃ x y mode, a = some (x, mode) ∧ b = some (y, mode) := by
  match a, b with
  | none, none => exact .inl ⟨rfl, rfl⟩
  | some (x, mode), some (y, mode') =>
    obtain rfl : mode = mode' := Option.some.inj h
    exact .inr ⟨x, y, mode, rfl, rfl⟩

mutual

/-- A term has a simplest form exactly if it has a meaning, and both leave the same mode. -/
theorem Term.simplify_mode (mode : Mode) (term : Term) :
    (term.simplify mode).map (·.2) = (term.resolve mode).map (·.2) := by
  match term with
  | .empty | .literal _ | .flags _ => rfl
  | .dot =>
    rw [Term.simplify, Term.resolve]
    cases mode.dot <;> rfl
  | .assertion a =>
    rw [Term.simplify, Term.resolve]
    cases mode.look a <;> rfl
  | .bracket negated items =>
    rw [Term.simplify, Term.resolve]
    cases mode.bracket negated items <;> rfl
  | .capture body | .repetition body _ _ _ =>
    rw [Term.simplify, Term.resolve]
    rcases outcome_cases (Term.simplify_mode mode body) with ⟨hs, hr⟩ | ⟨s, e, behind, hs, hr⟩
    · rw [hs, hr]
      rfl
    · rw [hs, hr]
      rfl
  | .group changes body =>
    rw [Term.simplify, Term.resolve]
    rcases outcome_cases (Term.simplify_mode (mode.changeAll changes) body) with
      ⟨hs, hr⟩ | ⟨s, e, behind, hs, hr⟩
    · rw [hs, hr]
      rfl
    · rw [hs, hr]
      rfl
  | .concat parts =>
    rw [Term.simplify, Term.resolve, ← (Term.simplifyAll_mode mode parts).1]
    cases Term.simplifyAll mode parts <;> rfl
  | .alternation branches =>
    rw [Term.simplify, Term.resolve, ← (Term.simplifyAll_mode mode branches).2]
    cases Term.simplifyAll mode branches <;> rfl

theorem Term.simplifyAll_mode (mode : Mode) (terms : List Term) :
    (Term.simplifyAll mode terms).map (·.2) = (Term.resolveAll mode terms).map (·.2) ∧
      (Term.simplifyAll mode terms).map (·.2) = (Term.resolveAny mode terms).map (·.2) := by
  match terms with
  | [] => exact ⟨rfl, rfl⟩
  | first :: rest =>
    rw [Term.simplifyAll, Term.resolveAll, Term.resolveAny]
    rcases outcome_cases (Term.simplify_mode mode first) with ⟨hs, hr⟩ | ⟨s, e, behind, hs, hr⟩
    · simp [hs, hr]
    · obtain ⟨hall, hany⟩ := Term.simplifyAll_mode behind rest
      rw [hs, hr]
      cases rest with
      | nil => exact ⟨rfl, rfl⟩
      | cons second rest =>
        constructor
        · rcases outcome_cases hall with ⟨ha, hb⟩ | ⟨x, y, last, ha, hb⟩ <;> simp [ha, hb]
        · rcases outcome_cases hany with ⟨ha, hb⟩ | ⟨x, y, last, ha, hb⟩ <;> simp [ha, hb]

end

end ParseView.Pattern
