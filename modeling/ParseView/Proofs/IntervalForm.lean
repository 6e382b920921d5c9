import ParseView.Pattern.Intervals

/-!
# The canonical form of a set of codes

Intervals are canonical if they go from left to right with a gap before each of them. A set of
codes has one list of such intervals only, so two sets are given by the same intervals as soon
as they hold the same codes, and nothing has to be sorted to see it.

That sorting and joining gives the canonical form is shown along the fold that joins: the
intervals done so far are canonical from right to left, they hold the codes of what was read,
and none of them begins behind the next one.
-/

namespace ParseView.Pattern

/-- Intervals with a code in each of them and a gap between each two. -/
structure Canonical (intervals : List Interval) : Prop where
  filled : ∀ i ∈ intervals, i.1 ≤ i.2
  apart : intervals.Pairwise fun a b => a.2 + 1 < b.1

variable {intervals : List Interval}

theorem inIntervals_iff {code : Nat} :
    inIntervals intervals code = true ↔ ∃ i ∈ intervals, i.1 ≤ code ∧ code ≤ i.2 := by
  simp [inIntervals]

theorem inIntervals_cons {i : Interval} {code : Nat} :
    inIntervals (i :: intervals) code = true ↔
      (i.1 ≤ code ∧ code ≤ i.2) ∨ inIntervals intervals code = true := by
  simp [inIntervals_iff]

theorem inIntervals_append {more : List Interval} {code : Nat} :
    inIntervals (intervals ++ more) code = true ↔
      inIntervals intervals code = true ∨ inIntervals more code = true := by
  simp [inIntervals, List.any_append]

/-! ## One form for each set -/

theorem Canonical.tail {i : Interval} (h : Canonical (i :: intervals)) : Canonical intervals :=
  ⟨(List.forall_mem_cons.mp h.filled).2, (List.pairwise_cons.mp h.apart).2⟩

/-- What lies in a later interval lies behind the gap. -/
theorem Canonical.lt_of_mem {i : Interval} (h : Canonical (i :: intervals)) {code : Nat}
    (hcode : inIntervals intervals code = true) : i.2 + 1 < code := by
  obtain ⟨j, hj, hlow, -⟩ := inIntervals_iff.mp hcode
  have hgap := (List.pairwise_cons.mp h.apart).1 j hj
  omega

/-- If one list holds all codes of another one, its first interval begins no later. -/
theorem Canonical.first_le {i j : Interval} {others : List Interval}
    (hi : Canonical (i :: intervals)) (hj : Canonical (j :: others))
    (h : ∀ code, inIntervals (j :: others) code = true → inIntervals (i :: intervals) code = true) :
    i.1 ≤ j.1 := by
  have hfilled := hj.filled j (List.mem_cons_self ..)
  have hfilled' := hi.filled i (List.mem_cons_self ..)
  rcases inIntervals_cons.mp (h j.1 (inIntervals_cons.mpr (.inl ⟨Nat.le_refl _, hfilled⟩)))
    with hfirst | hlater
  · exact hfirst.1
  · have hgap := hi.lt_of_mem hlater
    omega

/-- And then its first interval ends no earlier. -/
theorem Canonical.last_le {i j : Interval} {others : List Interval}
    (hi : Canonical (i :: intervals)) (hj : Canonical (j :: others)) (hfirst : i.1 = j.1)
    (h : ∀ code, inIntervals (j :: others) code = true → inIntervals (i :: intervals) code = true) :
    j.2 ≤ i.2 := by
  have hfilled := hj.filled j (List.mem_cons_self ..)
  have hfilled' := hi.filled i (List.mem_cons_self ..)
  refine Nat.le_of_not_lt fun hlt => ?_
  have hnext : inIntervals (j :: others) (i.2 + 1) = true :=
    inIntervals_cons.mpr (.inl ⟨by omega, by omega⟩)
  rcases inIntervals_cons.mp (h _ hnext) with hin | hlater
  · omega
  · have hgap := hi.lt_of_mem hlater
    omega

theorem Canonical.ext {others : List Interval} (h : Canonical intervals) (h' : Canonical others)
    (hcodes : ∀ code, inIntervals intervals code = true ↔ inIntervals others code = true) :
    intervals = others := by
  have hnil {i : Interval} {more : List Interval} (hi : Canonical (i :: more)) :
      inIntervals (i :: more) i.1 = true :=
    inIntervals_cons.mpr (.inl ⟨Nat.le_refl _, hi.filled i (List.mem_cons_self ..)⟩)
  induction intervals generalizing others with
  | nil =>
      cases others with
      | nil => rfl
      | cons j others => exact nomatch (hcodes _).mpr (hnil h')
  | cons i intervals ih =>
      cases others with
      | nil => exact nomatch (hcodes _).mp (hnil h)
      | cons j others =>
          have hfirst : i.1 = j.1 := Nat.le_antisymm
            (h.first_le h' fun code => (hcodes code).mpr) (h'.first_le h fun code => (hcodes code).mp)
          have hlast : i.2 = j.2 := Nat.le_antisymm
            (h'.last_le h hfirst.symm fun code => (hcodes code).mp)
            (h.last_le h' hfirst fun code => (hcodes code).mpr)
          obtain rfl : i = j := Prod.ext hfirst hlast
          refine congrArg (i :: ·) (ih h.tail h'.tail fun code => ?_)
          have hboth := hcodes code
          rw [inIntervals_cons, inIntervals_cons] at hboth
          constructor
          · intro hin
            have hgap := h.lt_of_mem hin
            exact (hboth.mp (.inr hin)).resolve_left (by omega)
          · intro hin
            have hgap := h'.lt_of_mem hin
            exact (hboth.mpr (.inr hin)).resolve_left (by omega)

/-! ## Sorting and joining -/

/-- The intervals done so far, the last one first, and one more. -/
def joinInterval (done : List Interval) (next : Interval) : List Interval :=
  match done with
  | (low, high) :: rest =>
    if next.1 ≤ high + 1 then (low, max high next.2) :: rest else next :: (low, high) :: rest
  | [] => [next]

theorem normalizeIntervals_eq (intervals : List Interval) :
    normalizeIntervals intervals = ((sortIntervals intervals).foldl joinInterval []).reverse := rfl

/-- Canonical from right to left. -/
structure Done (done : List Interval) : Prop where
  filled : ∀ i ∈ done, i.1 ≤ i.2
  apart : done.Pairwise fun a b => b.2 + 1 < a.1

/-- An interval that touches the last one makes it longer. -/
theorem Done.extend {low high : Nat} {rest : List Interval} {next : Interval}
    (h : Done ((low, high) :: rest)) (hlow : low ≤ next.1) (hnext : next.1 ≤ next.2)
    (htouch : next.1 ≤ high + 1) : Done ((low, max high next.2) :: rest) ∧ ∀ code,
      inIntervals ((low, max high next.2) :: rest) code = true ↔
        inIntervals ((low, high) :: rest) code = true ∨ next.1 ≤ code ∧ code ≤ next.2 := by
  obtain ⟨-, hrest⟩ := List.forall_mem_cons.mp h.filled
  have hfilled : low ≤ max high next.2 := by omega
  refine ⟨⟨List.forall_mem_cons.mpr ⟨hfilled, hrest⟩,
    List.pairwise_cons.mpr (List.pairwise_cons.mp h.apart)⟩, fun code => ?_⟩
  rw [inIntervals_cons, inIntervals_cons]
  simp only
  constructor
  · intro hin
    rcases hin with hin | hin
    · by_cases hcode : code ≤ high
      · exact .inl (.inl ⟨hin.1, hcode⟩)
      · exact .inr ⟨by omega, by omega⟩
    · exact .inl (.inr hin)
  · intro hin
    rcases hin with (hin | hin) | hin
    · exact .inl ⟨hin.1, by omega⟩
    · exact .inr hin
    · exact .inl ⟨by omega, by omega⟩

theorem Done.behind {low high : Nat} {rest : List Interval} {next : Interval}
    (h : Done ((low, high) :: rest)) (hnext : next.1 ≤ next.2) (hgap : ¬ next.1 ≤ high + 1) :
    Done (next :: (low, high) :: rest) := by
  have hfilled : low ≤ high := h.filled _ (List.mem_cons_self ..)
  obtain ⟨hlast, -⟩ := List.pairwise_cons.mp h.apart
  refine ⟨List.forall_mem_cons.mpr ⟨hnext, h.filled⟩, List.pairwise_cons.mpr ⟨?_, h.apart⟩⟩
  intro i hi
  rcases List.mem_cons.mp hi with rfl | hi
  · exact Nat.lt_of_not_le hgap
  · have hbefore : i.2 + 1 < low := hlast i hi
    omega

theorem Done.join {done : List Interval} {next : Interval} (h : Done done)
    (hnext : next.1 ≤ next.2) (hsorted : ∀ i ∈ done.head?, i.1 ≤ next.1) :
    Done (joinInterval done next) ∧ (∀ i ∈ (joinInterval done next).head?, i.1 ≤ next.1) ∧
      ∀ code, inIntervals (joinInterval done next) code = true ↔
        inIntervals done code = true ∨ next.1 ≤ code ∧ code ≤ next.2 := by
  have hhead {i j : Interval} {rest : List Interval} (hj : j.1 ≤ next.1)
      (hi : i ∈ (j :: rest).head?) : i.1 ≤ next.1 := by
    obtain rfl := Option.some.inj hi
    exact hj
  cases done with
  | nil =>
      refine ⟨⟨List.forall_mem_singleton.mpr hnext, List.pairwise_singleton ..⟩,
        fun i hi => hhead (Nat.le_refl _) hi, fun code => ?_⟩
      simp [joinInterval, inIntervals]
  | cons last rest =>
      obtain ⟨low, high⟩ := last
      have hlow : low ≤ next.1 := hsorted _ rfl
      rw [joinInterval]
      split
      · next htouch =>
          obtain ⟨hdone, hcodes⟩ := h.extend hlow hnext htouch
          exact ⟨hdone, fun i hi => hhead hlow hi, hcodes⟩
      · next hgap =>
          refine ⟨h.behind hnext hgap, fun i hi => hhead (Nat.le_refl _) hi, fun code => ?_⟩
          rw [inIntervals_cons, or_comm]

theorem Done.joinAll {rest done : List Interval} (h : Done done) (hfilled : ∀ i ∈ rest, i.1 ≤ i.2)
    (hsorted : rest.Pairwise fun a b => a.1 ≤ b.1)
    (hbehind : ∀ i ∈ done.head?, ∀ next ∈ rest, i.1 ≤ next.1) :
    Done (rest.foldl joinInterval done) ∧ ∀ code,
      inIntervals (rest.foldl joinInterval done) code = true ↔
        inIntervals done code = true ∨ inIntervals rest code = true := by
  induction rest generalizing done with
  | nil => exact ⟨h, fun code => by simp [inIntervals]⟩
  | cons next rest ih =>
      obtain ⟨hnext, hrest⟩ := List.forall_mem_cons.mp hfilled
      obtain ⟨hfirst, htail⟩ := List.pairwise_cons.mp hsorted
      obtain ⟨hjoined, hhead, hcodes⟩ :=
        h.join hnext fun i hi => hbehind i hi next (List.mem_cons_self ..)
      obtain ⟨hall, hallCodes⟩ := ih hjoined hrest htail
        fun i hi later hlater => Nat.le_trans (hhead i hi) (hfirst later hlater)
      refine ⟨hall, fun code => ?_⟩
      rw [List.foldl_cons, hallCodes, hcodes, inIntervals_cons, or_assoc]

theorem normalizeIntervals_canonical (h : ∀ i ∈ intervals, i.1 ≤ i.2) :
    Canonical (normalizeIntervals intervals) ∧ ∀ code,
      inIntervals (normalizeIntervals intervals) code = true ↔
        inIntervals intervals code = true := by
  have hmem (i : Interval) : i ∈ sortIntervals intervals ↔ i ∈ intervals := List.mem_mergeSort
  have hsorted : (sortIntervals intervals).Pairwise fun a b => a.1 ≤ b.1 := by
    have hpairwise : (sortIntervals intervals).Pairwise fun a b => decide (a.1 ≤ b.1) = true :=
      List.pairwise_mergeSort (fun a b c hab hbc => by simp only [decide_eq_true_eq] at *; omega)
        (fun a b => by simp only [Bool.or_eq_true, decide_eq_true_eq]; omega) intervals
    simpa only [decide_eq_true_eq] using hpairwise
  have hnone : Done [] := ⟨fun _ hi => (nomatch hi), .nil⟩
  obtain ⟨hdone, hcodes⟩ := hnone.joinAll (fun i hi => h i ((hmem i).mp hi)) hsorted
    fun _ hi => (nomatch hi)
  rw [normalizeIntervals_eq]
  refine ⟨⟨fun i hi => hdone.filled i (List.mem_reverse.mp hi),
    List.pairwise_reverse.mpr hdone.apart⟩, fun code => ?_⟩
  have hreverse : inIntervals ((sortIntervals intervals).foldl joinInterval []).reverse code =
      inIntervals ((sortIntervals intervals).foldl joinInterval []) code :=
    List.any_reverse
  rw [hreverse, hcodes]
  simp only [inIntervals_iff, hmem, List.not_mem_nil, false_and, exists_false, false_or]

/-- The canonical form of a set is found as soon as its codes are. -/
theorem normalizeIntervals_eq_of_codes {target : List Interval} (h : ∀ i ∈ intervals, i.1 ≤ i.2)
    (htarget : Canonical target)
    (hcodes : ∀ code, inIntervals intervals code = true ↔ inIntervals target code = true) :
    normalizeIntervals intervals = target := by
  obtain ⟨hcanonical, hnormal⟩ := normalizeIntervals_canonical h
  exact hcanonical.ext htarget fun code => (hnormal code).trans (hcodes code)

/-! ## Complements -/

/-- A code that is no surrogate. -/
def IsScalar (code : Nat) : Prop := code < 0xD800 ∨ 0xE000 ≤ code ∧ code ≤ 0x10FFFF

theorem inIntervals_gapsFrom {start code : Nat} (h : Canonical intervals)
    (hstart : ∀ i ∈ intervals.head?, start ≤ i.1) (hlast : ∀ i ∈ intervals, i.2 ≤ 0x10FFFF) :
    inIntervals (gapsFrom start intervals) code = true ↔
      start ≤ code ∧ code ≤ 0x10FFFF ∧ ¬ inIntervals intervals code = true := by
  induction intervals generalizing start with
  | nil =>
      rw [gapsFrom]
      split
      · simp [inIntervals]
      · simp [inIntervals]
        omega
  | cons i intervals ih =>
      obtain ⟨low, high⟩ := i
      obtain ⟨hhigh, hrest⟩ := List.forall_mem_cons.mp hlast
      have hfilled := h.filled _ (List.mem_cons_self ..)
      have hlow : start ≤ low := hstart _ rfl
      have hnext : ∀ i ∈ intervals.head?, high + 1 ≤ i.1 := fun i hi =>
        Nat.le_of_lt ((List.pairwise_cons.mp h.apart).1 i (List.mem_of_mem_head? hi))
      have hgaps := ih h.tail hnext hrest
      have hbehind (hin : inIntervals intervals code = true) : high + 1 < code := h.lt_of_mem hin
      simp only at hfilled hhigh
      rw [gapsFrom]
      split
      · rw [inIntervals_cons, hgaps, inIntervals_cons]
        simp only
        by_cases hin : inIntervals intervals code = true
        · have hgap := hbehind hin
          simp only [hin, not_true_eq_false, and_false, or_false, or_true, iff_false]
          omega
        · simp only [hin, Bool.false_eq_true, not_false_eq_true, and_true, or_false]
          omega
      · rw [hgaps, inIntervals_cons]
        simp only
        by_cases hin : inIntervals intervals code = true
        · simp [hin]
        · simp only [hin, Bool.false_eq_true, not_false_eq_true, and_true, or_false]
          omega

theorem dropSurrogates_eq {low high : Nat} (h : low ≤ high)
    (hwhole : high < 0xD800 ∨ 0xE000 ≤ low) : dropSurrogates (low, high) = [(low, high)] := by
  rcases hwhole with hbelow | habove
  · have hlow : min high 0xD7FF = high := by omega
    have hhigh : ¬ max low 0xE000 ≤ high := by omega
    simp [dropSurrogates, hlow, hhigh, h]
  · have hlow : ¬ low ≤ min high 0xD7FF := by omega
    have hhigh : max low 0xE000 = low := by omega
    simp [dropSurrogates, hlow, hhigh, h]

theorem inIntervals_dropSurrogates {code : Nat} (hcode : IsScalar code) :
    inIntervals (intervals.flatMap dropSurrogates) code = true ↔
      inIntervals intervals code = true := by
  simp only [inIntervals_iff, List.mem_flatMap]
  constructor
  · intro h
    obtain ⟨i, ⟨⟨low, high⟩, hi', hi⟩, hin⟩ := h
    refine ⟨(low, high), hi', ?_⟩
    simp only [dropSurrogates, List.mem_filter, List.mem_cons, List.not_mem_nil, or_false] at hi
    rcases hi.1 with rfl | rfl
    · simp only at hin ⊢
      omega
    · simp only at hin ⊢
      omega
  · intro h
    obtain ⟨⟨low, high⟩, hi, hin⟩ := h
    simp only at hin
    rcases hcode with hcode | hcode
    · refine ⟨(low, min high 0xD7FF), ⟨(low, high), hi, ?_⟩, hin.1, by simp only; omega⟩
      simp only [dropSurrogates, List.mem_filter, List.mem_cons, true_or, true_and,
        decide_eq_true_eq]
      omega
    · refine ⟨(max low 0xE000, high), ⟨(low, high), hi, ?_⟩, by simp only; omega, hin.2⟩
      simp only [dropSurrogates, List.mem_filter, List.mem_cons, true_or, or_true, true_and,
        decide_eq_true_eq]
      omega

/-- The complement holds what the intervals do not, surrogates aside. -/
theorem inIntervals_gaps {code : Nat} (h : Canonical intervals)
    (hlast : ∀ i ∈ intervals, i.2 ≤ 0x10FFFF) (hcode : IsScalar code) :
    inIntervals ((gapsFrom 0 intervals).flatMap dropSurrogates) code = true ↔
      ¬ inIntervals intervals code = true := by
  rw [inIntervals_dropSurrogates hcode, inIntervals_gapsFrom h (fun _ _ => Nat.zero_le _) hlast]
  rw [IsScalar] at hcode
  constructor
  · exact fun hgap => hgap.2.2
  · exact fun hnot => ⟨Nat.zero_le _, by omega, hnot⟩

end ParseView.Pattern
