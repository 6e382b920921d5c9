import Mathlib.Data.List.Forall2
import ParseView.Proofs.ClassReading
import ParseView.Proofs.MatchMeaning
import ParseView.Regexp.Compiled

/-!
# Patterns that are runs of parts

Most of a pattern is a run of parts, each of which the reader takes in one step:
characters, classes, assertions. Such a pattern is read as the run of its parts, means
what they mean one after the other, and leads from a place to another one through the
places between them.
-/

namespace ParseView.Pattern

/-! ## Reading parts -/

/-- The text is a run of parts, each taken in one step, and these are their terms. -/
inductive PartsText : List Char → List Term → Prop where
  | nil : PartsText [] []
  | cons {c : Char} {tail text : List Char} {term : Term} {terms : List Term}
      (head : ∀ (r : Reading) (after : List Char), r.verbose = false →
        r.step c (tail ++ after) = some (r.push term after))
      (rest : PartsText text terms) : PartsText (c :: (tail ++ text)) (term :: terms)

/-- A part of a single character. -/
theorem PartsText.cons_char {c : Char} {text : List Char} {term : Term} {terms : List Term}
    (head : ∀ (r : Reading) (after : List Char), r.verbose = false →
      r.step c after = some (r.push term after))
    (rest : PartsText text terms) : PartsText (c :: text) (term :: terms) := by
  have h : PartsText (c :: ([] ++ text)) (term :: terms) := .cons head rest
  exact h

theorem PartsText.append {text text' : List Char} {terms terms' : List Term}
    (h : PartsText text terms) (h' : PartsText text' terms') :
    PartsText (text ++ text') (terms ++ terms') := by
  induction h with
  | nil => exact h'
  | @cons c tail text term terms head rest ih =>
      rw [List.cons_append, List.append_assoc]
      exact .cons head ih

theorem Reading.run_of_step {r next : Reading} {c : Char} {rest : List Char}
    (hverbose : r.verbose = false) (hunread : r.unread = c :: rest)
    (hstep : r.step c rest = some next) : r.run = next.run := by
  have hskip : skipVerbose r.verbose r.unread = c :: rest := by
    rw [hverbose, hunread, skipVerbose_false]
  rw [Reading.run]
  split
  · next hnil => exact absurd (hskip.symm.trans hnil) (List.cons_ne_nil c rest)
  · next hcons =>
      obtain ⟨rfl, rfl⟩ := List.cons.inj (hskip.symm.trans hcons)
      split
      · next hnone => exact absurd (hstep.symm.trans hnone) (Option.some_ne_none next)
      · next hsome => rw [Option.some.inj (hstep.symm.trans hsome)]

theorem PartsText.run {text : List Char} {terms : List Term} (h : PartsText text terms)
    {r : Reading} (hverbose : r.verbose = false) (hgroups : r.groups = [])
    (hbranches : r.branches = []) (hunread : r.unread = text) :
    r.run = some (.ofParts (r.parts.reverse ++ terms)) := by
  induction h generalizing r with
  | nil =>
      rw [Reading.run, hverbose, hunread, skipVerbose_false]
      simp [hgroups, hbranches, Reading.body, Term.ofBranches]
  | @cons c tail text term terms head rest ih =>
      have hstep : r.step c (tail ++ text) = some (r.push term text) := head r text hverbose
      rw [Reading.run_of_step hverbose hunread hstep, ih (r := r.push term text) hverbose hgroups
        hbranches rfl]
      simp [Reading.push]

/-- The text is a pattern unless it is nested too deeply. -/
theorem PartsText.ofText?_eq {text : List Char} {terms : List Term} (h : PartsText text terms) :
    Term.ofText? text =
      if (Term.ofParts terms).depth ≤ depthLimit then some (.ofParts terms) else none := by
  have hrun := h.run (r := ⟨[], [], [], false, [], text⟩) rfl rfl rfl rfl
  rw [Term.ofText?, hrun]
  rfl

theorem PartsText.ofText? {text : List Char} {terms : List Term} (h : PartsText text terms)
    {term : Term} (hterm : Term.ofText? text = some term) : term = .ofParts terms := by
  rw [h.ofText?_eq] at hterm
  exact (Option.some.inj (Option.ite_none_right_eq_some.mp hterm).2).symm

/-! ## What parts mean -/

/-- Patterns one after the other. -/
def Expr.concatAll : List Expr → Expr
  | [] => .empty
  | [e] => e
  | e :: es => .concat e (Expr.concatAll es)

/-- The patterns lead one after the other from place `i` to place `j`. -/
def SpansAll (text : List Char) : List Expr → Nat → Nat → Prop
  | [], i, j => i = j
  | e :: es, i, j => ∃ k, e.Spans text i k ∧ SpansAll text es k j

theorem spans_concatAll {text : List Char} {es : List Expr} {i j : Nat} :
    (Expr.concatAll es).Spans text i j ↔ SpansAll text es i j := by
  induction es generalizing i with
  | nil => rfl
  | cons e es ih =>
      cases es with
      | nil => simp [Expr.concatAll, SpansAll]
      | cons e' es => exact exists_congr fun k => and_congr_right fun _ => ih

theorem spansAll_append {text : List Char} {es es' : List Expr} {i j : Nat} :
    SpansAll text (es ++ es') i j ↔ ∃ k, SpansAll text es i k ∧ SpansAll text es' k j := by
  induction es generalizing i with
  | nil => simp [SpansAll]
  | cons e es ih =>
      simp only [List.cons_append, SpansAll, ih]
      constructor
      · rintro ⟨k, hk, l, hl, hj⟩
        exact ⟨l, ⟨k, hk, hl⟩, hj⟩
      · rintro ⟨l, ⟨k, hk, hl⟩, hj⟩
        exact ⟨k, hk, l, hl, hj⟩

/-- The term means the pattern in this mode, which it leaves as it is. -/
def Means (mode : Mode) (term : Term) (e : Expr) : Prop := term.resolve mode = some (e, mode)

theorem resolveAll_of_means {mode : Mode} {terms : List Term} {es : List Expr}
    (h : List.Forall₂ (Means mode) terms es) :
    Term.resolveAll mode terms = some (Expr.concatAll es, mode) := by
  induction h with
  | nil => rfl
  | @cons term e terms es head tail ih =>
      have hhead : term.resolve mode = some (e, mode) := head
      rw [Term.resolveAll, hhead]
      cases tail with
      | nil => rfl
      | cons head' tail' => simp [ih, Expr.concatAll]

theorem means_ofParts {mode : Mode} {terms : List Term} {es : List Expr}
    (h : List.Forall₂ (Means mode) terms es) : Means mode (.ofParts terms) (Expr.concatAll es) := by
  cases h with
  | nil => rfl
  | cons head tail =>
      cases tail with
      | nil => exact head
      | cons head' tail' => exact resolveAll_of_means (.cons head (.cons head' tail'))

end ParseView.Pattern

namespace ParseView.Regexp

open Pattern (Term Expr PartsText Means SpansAll Denotes)

/-- What is compiled from a pattern that the engine reads as a run of parts matches
where they lead from one place to another. -/
theorem isMatch_iff_of_parts {source : Source} {flags : Flags} {text : List Char}
    {terms : List Term} {es : List Expr} {r : Regexp} (h : compile? source = some r)
    (hflags : Flags.ofText? source.flags = some flags)
    (hpattern : enginePattern? flags source.pattern.toList = some text)
    (htext : PartsText text terms) (hmeans : List.Forall₂ (Means flags.mode) terms es)
    (haystack : String) : r.isMatch haystack = true ↔
      ∃ i j, i ≤ haystack.toList.length ∧ SpansAll haystack.toList es i j := by
  rw [compile?, hflags] at h
  simp only [Option.bind_eq_bind, Option.bind_some, hpattern] at h
  obtain ⟨program, hprogram, hr⟩ := Option.bind_eq_some_iff.mp h
  obtain rfl := Option.some.inj hr
  obtain ⟨term, hterm, hprogram⟩ := Option.bind_eq_some_iff.mp hprogram
  obtain rfl := htext.ofText? hterm
  have hresolve : (Term.ofParts terms).resolve flags.mode = some (Expr.concatAll es, flags.mode) :=
    Pattern.means_ofParts hmeans
  simp only [hresolve, Option.bind_eq_bind, Option.bind_some] at hprogram
  obtain rfl := Option.some.inj (Option.ite_none_right_eq_some.mp hprogram).2
  rw [isMatch, Pattern.Expr.isMatch_iff]
  simp only [Pattern.spans_concatAll]

/-- A pattern that is a class matches where one of its characters stands. -/
theorem isMatch_iff_of_denotes {source : Source} {flags : Flags} {text : List Char}
    {p : Nat → Prop} {r : Regexp} (h : compile? source = some r)
    (hflags : Flags.ofText? source.flags = some flags)
    (hpattern : enginePattern? flags source.pattern.toList = some text)
    (hdenotes : Denotes flags.mode text p) (haystack : String) :
    r.isMatch haystack = true ↔ ∃ c ∈ haystack.toList, p c.toNat := by
  obtain ⟨inner, negated, items, set, rfl, hstep, hset, hcontains⟩ := hdenotes
  have htext : PartsText ('[' :: inner) [.bracket negated items] := by
    have hparts : PartsText ('[' :: (inner ++ [])) [.bracket negated items] := .cons hstep .nil
    rwa [List.append_nil] at hparts
  have hmeans : Means flags.mode (.bracket negated items) (.chars set) := by
    rw [Means, Term.resolve, hset, Option.map_some]
  have hchar (c : Char) : set.contains c.toNat = true ↔ p c.toNat := by
    refine hcontains c.toNat ?_
    rcases (c.valid : c.toNat.isValidChar) with hlow | ⟨-, hhigh⟩
    · exact Nat.lt_trans hlow (by decide)
    · exact hhigh
  rw [isMatch_iff_of_parts h hflags hpattern htext (.cons hmeans .nil)]
  constructor
  · rintro ⟨i, j, -, k, ⟨-, c, hc, hmem⟩, -⟩
    exact ⟨c, List.mem_of_getElem? hc, (hchar c).mp hmem⟩
  · rintro ⟨c, hc, hp⟩
    obtain ⟨i, hi, heq⟩ := List.getElem_of_mem hc
    exact ⟨i, i + 1, Nat.le_of_lt hi, i + 1,
      ⟨rfl, c, List.getElem?_eq_some_iff.mpr ⟨hi, heq⟩, (hchar c).mpr hp⟩, rfl⟩

end ParseView.Regexp
