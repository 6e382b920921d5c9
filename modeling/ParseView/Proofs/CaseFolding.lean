import ParseView.Proofs.ClassReading
import ParseView.Proofs.IntervalForm

/-!
# Sets that case does not matter for

A set is closed under case if of two codes that case tells apart it holds both or neither. It
is enough to look at the pairs of the table: a class of codes equal under simple case folding
is what the table takes to its least member, together with that member.

Closing a set under case gives a closed set that lies between the set and what case reaches
from it, and there is one such set only. So what is made of a set by closing it, both as a
set of codes and as a list of intervals, is found by naming the result: it is enough that it
is closed, holds the set, and holds nothing that case does not reach.
-/

namespace ParseView.Pattern

open Text (CaseRun foldRuns foldCode caseClass)

/-- Closed under the pairs of the table. -/
def CaseClosed (p : Nat → Prop) : Prop := ∀ pair ∈ casePairs, p pair.1 ↔ p pair.2

theorem mem_casePairs {run : CaseRun} (hrun : run ∈ foldRuns) {code : Nat}
    (h : run.covers code = true) : (code, run.image code) ∈ casePairs := by
  simp only [CaseRun.covers, Bool.and_eq_true, decide_eq_true_eq, beq_iff_eq] at h
  obtain ⟨⟨hfirst, hlast⟩, hstep⟩ := h
  have hcount : (code - run.first) / run.step * run.step = code - run.first :=
    Nat.div_mul_cancel (Nat.dvd_of_mod_eq_zero hstep)
  have hle : (code - run.first) / run.step ≤ (run.last - run.first) / run.step :=
    Nat.div_le_div_right (by omega)
  refine List.mem_flatMap.mpr ⟨run, hrun, List.mem_map.mpr ⟨code, List.mem_map.mpr
    ⟨(code - run.first) / run.step, List.mem_range.mpr (by omega), ?_⟩, rfl⟩⟩
  rw [hcount]
  omega

/-- Every run goes from its first code to its last, downwards, and leaves the surrogates aside. -/
theorem foldRuns_shape : ∀ run ∈ foldRuns, run.first ≤ run.last ∧ run.shift ≤ 0 ∧
    (run.last < 0xD800 ∨ 0xE000 ≤ run.image run.first ∧ run.last ≤ 0x10FFFF) := by
  decide +kernel

/-- The codes of a pair lie within the ends of a run and of its image. -/
theorem exists_run_of_mem_casePairs {pair : Nat × Nat} (h : pair ∈ casePairs) :
    ∃ run ∈ foldRuns, pair.1 ∈ runCodes run ∧ pair.2 = run.image pair.1 ∧
      run.first ≤ pair.1 ∧ pair.1 ≤ run.last ∧
      run.image run.first ≤ pair.2 ∧ pair.2 ≤ run.image run.last := by
  obtain ⟨run, hrun, hmem⟩ := List.mem_flatMap.mp h
  obtain ⟨code, hcode, rfl⟩ := List.mem_map.mp hmem
  refine ⟨run, hrun, hcode, rfl, ?_⟩
  obtain ⟨k, hk, rfl⟩ := List.mem_map.mp hcode
  have hcount : k * run.step ≤ run.last - run.first :=
    Nat.le_trans (Nat.mul_le_mul_right _ (Nat.le_of_lt_succ (List.mem_range.mp hk)))
      (Nat.div_mul_le_self _ _)
  have hspan := (foldRuns_shape run hrun).1
  simp only [CaseRun.image]
  omega

theorem isScalar_of_mem_casePairs {pair : Nat × Nat} (h : pair ∈ casePairs) :
    IsScalar pair.1 ∧ IsScalar pair.2 := by
  obtain ⟨run, hrun, -, himage, hfirst, hlast, hfrom, hto⟩ := exists_run_of_mem_casePairs h
  obtain ⟨-, hdown, hscalar⟩ := foldRuns_shape run hrun
  rw [CaseRun.image] at himage
  simp only [IsScalar]
  omega

/-! ## Closed under every run -/

/-- No interval meets the codes from the one to the other. -/
def misses (intervals : List Interval) (low high : Nat) : Bool :=
  intervals.all fun i => high < i.1 || i.2 < low

theorem not_inIntervals_of_misses {intervals : List Interval} {low high code : Nat}
    (h : misses intervals low high = true) (hlow : low ≤ code) (hhigh : code ≤ high) :
    ¬ inIntervals intervals code = true := by
  intro hin
  obtain ⟨i, hi, hcode⟩ := inIntervals_iff.mp hin
  have haway := List.all_eq_true.mp h i hi
  simp only [Bool.or_eq_true, decide_eq_true_eq] at haway
  omega

/-- Of a run that the intervals meet each code is looked at, on both of its sides. -/
def closedUnder (intervals : List Interval) (run : CaseRun) : Bool :=
  (misses intervals run.first run.last &&
      misses intervals (run.image run.first) (run.image run.last)) ||
    (runCodes run).all fun code => inIntervals intervals code == inIntervals intervals (run.image code)

theorem caseClosed_of_runs {intervals : List Interval}
    (h : ∀ run ∈ foldRuns, closedUnder intervals run = true) :
    CaseClosed fun code => inIntervals intervals code = true := by
  intro pair hpair
  obtain ⟨run, hrun, hcode, himage, hfirst, hlast, hfrom, hto⟩ := exists_run_of_mem_casePairs hpair
  have hclosed := h run hrun
  rw [closedUnder, Bool.or_eq_true, Bool.and_eq_true] at hclosed
  rcases hclosed with ⟨hmisses, hmisses'⟩ | hall
  · exact iff_of_false (not_inIntervals_of_misses hmisses hfirst hlast)
      (not_inIntervals_of_misses hmisses' hfrom hto)
  · have heq := beq_iff_eq.mp (List.all_eq_true.mp hall pair.1 hcode)
    rw [himage]
    exact Bool.eq_iff_iff.mp heq

/-- The gaps between closed intervals are closed. -/
theorem caseClosed_gaps {intervals : List Interval} (h : Canonical intervals)
    (hlast : ∀ i ∈ intervals, i.2 ≤ 0x10FFFF)
    (hclosed : CaseClosed fun code => inIntervals intervals code = true) :
    CaseClosed fun code =>
      inIntervals ((gapsFrom 0 intervals).flatMap dropSurrogates) code = true := by
  intro pair hpair
  obtain ⟨hcode, himage⟩ := isScalar_of_mem_casePairs hpair
  exact (inIntervals_gaps h hlast hcode).trans
    ((not_congr (hclosed pair hpair)).trans (inIntervals_gaps h hlast himage).symm)

/-! ## Case classes -/

section Closed

variable {p q : Nat → Prop}

theorem CaseClosed.foldCode_iff (h : CaseClosed q) (code : Nat) : q (foldCode code) ↔ q code := by
  rw [foldCode, Text.imageUnder]
  split
  · next run hfind =>
      have hcovers : run.covers code = true :=
        List.find?_some (p := fun r : CaseRun => r.covers code) hfind
      exact (h _ (mem_casePairs (List.mem_of_find?_eq_some hfind) hcovers)).symm
  · exact Iff.rfl

/-- No run goes upwards, so each code is the image of the one that far behind it. -/
theorem image_origin {run : CaseRun} (hrun : run ∈ foldRuns) (least : Nat) :
    run.image ((least : Int) - run.shift).toNat = least := by
  have hdown := (foldRuns_shape run hrun).2.1
  rw [CaseRun.image]
  omega

theorem CaseClosed.caseClass_iff (h : CaseClosed q) {code other : Nat}
    (hother : other ∈ caseClass code) : q other ↔ q code := by
  rw [caseClass] at hother
  rcases List.mem_cons.mp hother with rfl | horigin
  · exact h.foldCode_iff code
  · obtain ⟨run, hrun, heq⟩ := List.mem_filterMap.mp horigin
    obtain ⟨hcovers, heq⟩ := Option.ite_none_right_eq_some.mp heq
    obtain rfl := Option.some.inj heq
    have hpair := h _ (mem_casePairs hrun hcovers)
    rw [image_origin hrun] at hpair
    exact hpair.trans (h.foldCode_iff code)

/-- Closing a set under case, if case matters, gives any closed set that case reaches from it. -/
theorem CaseClosed.closes_iff (h : CaseClosed q) {mode : Mode} (hcase : mode.ignoreCase = true)
    (hpq : ∀ code, p code → q code)
    (hqp : ∀ code, q code → p code ∨ ∃ other ∈ caseClass code, p other) (code : Nat) :
    mode.Closes p code ↔ q code := by
  constructor
  · intro hcloses
    rcases hcloses with hp | ⟨-, other, hother, hp⟩
    · exact hpq code hp
    · exact (h.caseClass_iff hother).mp (hpq other hp)
  · intro hq
    rcases hqp code hq with hp | hreached
    · exact .inl hp
    · exact .inr ⟨hcase, hreached⟩

/-- A closed set stays as it is, and so does its complement. -/
theorem CaseClosed.closes_self (h : CaseClosed q) (mode : Mode) (code : Nat) :
    mode.Closes q code ↔ q code := by
  constructor
  · intro hcloses
    rcases hcloses with hq | ⟨-, other, hother, hq⟩
    · exact hq
    · exact (h.caseClass_iff hother).mp hq
  · exact Or.inl

theorem CaseClosed.not (h : CaseClosed q) : CaseClosed fun code => ¬ q code :=
  fun pair hpair => not_congr (h pair hpair)

end Closed

/-! ## Intervals -/

theorem inIntervals_map_self {codes : List Nat} {code : Nat} :
    inIntervals (codes.map fun code => (code, code)) code = true ↔ code ∈ codes := by
  rw [inIntervals_iff]
  constructor
  · intro h
    obtain ⟨i, hi, hlow, hhigh⟩ := h
    obtain ⟨other, hother, rfl⟩ := List.mem_map.mp hi
    obtain rfl : other = code := by
      simp only at hlow hhigh
      omega
    exact hother
  · intro h
    exact ⟨(code, code), List.mem_map.mpr ⟨code, h, rfl⟩, Nat.le_refl _, Nat.le_refl _⟩

/-- The least codes of the classes that the intervals meet. -/
def metCodes (intervals : List Interval) : List Nat :=
  casePairs.filterMap fun (code, least) =>
    if inIntervals intervals code || inIntervals intervals least then some least else none

/-- The other codes of these classes. -/
def addedCodes (intervals : List Interval) : List Nat :=
  casePairs.filterMap fun (code, least) =>
    if (metCodes intervals).contains least then some code else none

theorem foldIntervals_eq_normalize (intervals : List Interval) : foldIntervals intervals =
    normalizeIntervals (intervals ++ (addedCodes intervals).map (fun code => (code, code)) ++
      (metCodes intervals).map fun code => (code, code)) := by
  have hadded : (casePairs.filterMap fun (code, least) =>
      if (metCodes intervals).contains least then some (code, code) else none) =
        (addedCodes intervals).map fun code => (code, code) := by
    rw [addedCodes, List.map_filterMap]
    refine congrArg (casePairs.filterMap ·) (funext fun pair => ?_)
    obtain ⟨code, least⟩ := pair
    show (if _ then _ else _) = Option.map _ (if _ then _ else _)
    split <;> rfl
  rw [← hadded]
  rfl

theorem mem_metCodes {intervals : List Interval} {least : Nat} :
    least ∈ metCodes intervals ↔ ∃ code, (code, least) ∈ casePairs ∧
      (inIntervals intervals code = true ∨ inIntervals intervals least = true) := by
  simp only [metCodes, List.mem_filterMap, Prod.exists, Option.ite_none_right_eq_some,
    Bool.or_eq_true, Option.some.injEq]
  constructor
  · intro h
    obtain ⟨code, least', hpair, hmet, rfl⟩ := h
    exact ⟨code, hpair, hmet⟩
  · intro h
    obtain ⟨code, hpair, hmet⟩ := h
    exact ⟨code, least, hpair, hmet, rfl⟩

theorem mem_addedCodes {intervals : List Interval} {code : Nat} :
    code ∈ addedCodes intervals ↔
      ∃ least, (code, least) ∈ casePairs ∧ least ∈ metCodes intervals := by
  simp only [addedCodes, List.mem_filterMap, Prod.exists, Option.ite_none_right_eq_some,
    List.contains_iff_mem, Option.some.injEq]
  constructor
  · intro h
    obtain ⟨code', least, hpair, hmet, rfl⟩ := h
    exact ⟨least, hpair, hmet⟩
  · intro h
    obtain ⟨least, hpair, hmet⟩ := h
    exact ⟨code, least, hpair, hmet, rfl⟩

/-- The same for intervals. -/
theorem foldIntervals_eq {intervals target : List Interval} (hfilled : ∀ i ∈ intervals, i.1 ≤ i.2)
    (htarget : Canonical target) (hclosed : CaseClosed fun code => inIntervals target code = true)
    (hsub : ∀ code, inIntervals intervals code = true → inIntervals target code = true)
    (hreach : ∀ code, inIntervals target code = true → inIntervals intervals code = true ∨
      ∃ least, (code, least) ∈ casePairs ∧ inIntervals intervals least = true) :
    foldIntervals intervals = target := by
  have hmet {least : Nat} (h : least ∈ metCodes intervals) : inIntervals target least = true := by
    obtain ⟨code, hpair, hcode | hleast⟩ := mem_metCodes.mp h
    · exact (hclosed _ hpair).mp (hsub code hcode)
    · exact hsub least hleast
  rw [foldIntervals_eq_normalize]
  refine normalizeIntervals_eq_of_codes ?_ htarget fun code => ?_
  · intro i hi
    simp only [List.mem_append, List.mem_map] at hi
    rcases hi with (hi | ⟨code, -, rfl⟩) | ⟨code, -, rfl⟩
    · exact hfilled i hi
    · exact Nat.le_refl code
    · exact Nat.le_refl code
  · rw [inIntervals_append, inIntervals_append, inIntervals_map_self, inIntervals_map_self]
    constructor
    · intro h
      rcases h with (hcode | hadded) | hleast
      · exact hsub code hcode
      · obtain ⟨least, hpair, hleast⟩ := mem_addedCodes.mp hadded
        exact (hclosed _ hpair).mpr (hmet hleast)
      · exact hmet hleast
    · intro h
      rcases hreach code h with hcode | ⟨least, hpair, hleast⟩
      · exact .inl (.inl hcode)
      · exact .inl (.inr (mem_addedCodes.mpr
          ⟨least, hpair, mem_metCodes.mpr ⟨code, hpair, .inr hleast⟩⟩))

theorem foldIntervals_of_closed {intervals : List Interval} (h : Canonical intervals)
    (hclosed : CaseClosed fun code => inIntervals intervals code = true) :
    foldIntervals intervals = intervals :=
  foldIntervals_eq h.filled h hclosed (fun _ => id) fun _ => Or.inl

end ParseView.Pattern
