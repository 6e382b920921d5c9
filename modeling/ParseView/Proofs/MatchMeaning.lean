import Mathlib.Data.Finset.Card
import Mathlib.Order.Monotone.Basic
import ParseView.Pattern.Match

/-!
# What a pattern matches

The matcher moves sets of places, all at once and each as one number, and it stops a
repetition early or after as many rounds as there are places. `Expr.Spans` says what a
pattern is about without any of this: from which place to which other one it may lead,
for one match at a time and with any number of rounds. The matcher finds a match
exactly where there is one.

A repetition is the only hard part. Its rounds are those of a function on sets that only
grow, and a set of places grows less often than there are places, so that nothing is
left to be found when the rounds end.
-/

namespace ParseView.Pattern

/-! ## From one place to another -/

/-- So many steps of a relation. -/
def Rounds (r : Nat → Nat → Prop) : Nat → Nat → Nat → Prop
  | 0, i, j => i = j
  | n + 1, i, j => ∃ k, Rounds r n i k ∧ r k j

/-- The pattern may lead from place `i` of the text to place `j`. -/
def Expr.Spans (text : List Char) : Expr → Nat → Nat → Prop
  | .empty, i, j => i = j
  | .chars set, i, j => j = i + 1 ∧ ∃ c ∈ text[i]?, set.contains c.toNat = true
  | .look condition, i, j =>
    i = j ∧ i ≤ text.length ∧ condition.holds (text.take i).getLast? text[i]? = true
  | .capture body, i, j => body.Spans text i j
  | .concat a b, i, j => ∃ k, a.Spans text i k ∧ b.Spans text k j
  | .choice a b, i, j => a.Spans text i j ∨ b.Spans text i j
  | .repetition body least most, i, j =>
    ∃ n, least ≤ n ∧ (∀ m ∈ most, n ≤ max least m) ∧ Rounds (body.Spans text) n i j

theorem Rounds.add {r : Nat → Nat → Prop} {i k j m n : Nat} (h : Rounds r m i k)
    (h' : Rounds r n k j) : Rounds r (m + n) i j := by
  induction n generalizing j with
  | zero =>
      obtain rfl : k = j := h'
      exact h
  | succ n ih =>
      obtain ⟨l, hl, hr⟩ := h'
      exact ⟨l, ih hl, hr⟩

theorem Rounds.split {r : Nat → Nat → Prop} {i j m n : Nat} (h : Rounds r (m + n) i j) :
    ∃ k, Rounds r m i k ∧ Rounds r n k j := by
  induction n generalizing j with
  | zero => exact ⟨j, h, rfl⟩
  | succ n ih =>
      obtain ⟨l, hl, hr⟩ := h
      obtain ⟨k, hm, hn⟩ := ih hl
      exact ⟨k, hm, l, hn, hr⟩

/-! ## Sets of places as numbers -/

theorem testBit_bit_add (b : Bool) (n i : Nat) :
    ((if b then 1 else 0) + 2 * n).testBit i =
      match i with
      | 0 => b
      | i + 1 => n.testBit i := by
  cases i with
  | zero => cases b <;> simp [Nat.testBit_zero]
  | succ i =>
      have hhalf : ((if b then 1 else 0) + 2 * n) / 2 = n := by
        split <;> omega
      rw [Nat.testBit_add_one, hhalf]

theorem testBit_charMask (set : CharSet) (text : List Char) (i : Nat) :
    (charMask set text).testBit i = true ↔ ∃ c ∈ text[i]?, set.contains c.toNat = true := by
  induction text generalizing i with
  | nil => simp [charMask]
  | cons c rest ih =>
      rw [charMask, testBit_bit_add]
      cases i with
      | zero => simp
      | succ i => simpa using ih i

theorem Look.testBit_mask (look : Look) (before : Option Char) (text : List Char) (i : Nat) :
    (look.mask before text).testBit i = true ↔
      i ≤ text.length ∧ look.holds ((text.take i).getLast?.or before) text[i]? = true := by
  induction text generalizing before i with
  | nil =>
      have hbit := testBit_bit_add (look.holds before none) 0 i
      simp only [Nat.mul_zero, Nat.add_zero] at hbit
      rw [mask, hbit]
      cases i <;> simp
  | cons c rest ih =>
      rw [mask, testBit_bit_add]
      cases i with
      | zero => simp
      | succ i =>
          have hbefore : ((c :: rest).take (i + 1)).getLast?.or before =
              ((rest.take i).getLast?.or (some c)) := by
            rw [List.take_succ_cons, List.getLast?_cons]
            cases (rest.take i).getLast? <;> rfl
          simp only [hbefore, ih, List.length_cons, Nat.add_le_add_iff_right,
            List.getElem?_cons_succ]

/-- All places of the set are places of a text of this length. -/
def Within (length places : Nat) : Prop := ∀ i, places.testBit i = true → i ≤ length

/-- The function takes a set of places to the places that the relation leads to. -/
structure Carries (length : Nat) (f : Nat → Nat) (r : Nat → Nat → Prop) : Prop where
  testBit : ∀ places, Within length places → ∀ j,
    (f places).testBit j = true ↔ ∃ i, places.testBit i = true ∧ r i j
  within : ∀ i j, r i j → i ≤ length → j ≤ length

namespace Carries

variable {length : Nat} {f g : Nat → Nat} {r s : Nat → Nat → Prop}

theorem image_within (h : Carries length f r) {places : Nat} (hp : Within length places) :
    Within length (f places) := by
  intro j hj
  obtain ⟨i, hi, hr⟩ := (h.testBit places hp j).mp hj
  exact h.within i j hr (hp i hi)

theorem comp (hf : Carries length f r) (hg : Carries length g s) :
    Carries length (fun places => g (f places)) fun i j => ∃ k, r i k ∧ s k j where
  testBit places hp j := by
    rw [hg.testBit _ (hf.image_within hp)]
    constructor
    · rintro ⟨k, hk, hs⟩
      obtain ⟨i, hi, hr⟩ := (hf.testBit places hp k).mp hk
      exact ⟨i, hi, k, hr, hs⟩
    · rintro ⟨i, hi, k, hr, hs⟩
      exact ⟨k, (hf.testBit places hp k).mpr ⟨i, hi, hr⟩, hs⟩
  within i j := by
    rintro ⟨k, hr, hs⟩ hi
    exact hg.within k j hs (hf.within i k hr hi)

theorem union (hf : Carries length f r) (hg : Carries length g s) :
    Carries length (fun places => f places ||| g places) fun i j => r i j ∨ s i j where
  testBit places hp j := by
    rw [Nat.testBit_or, Bool.or_eq_true, hf.testBit places hp, hg.testBit places hp]
    simp only [and_or_left, exists_or]
  within i j h hi := h.elim (hf.within i j · hi) (hg.within i j · hi)

/-! ### Rounds -/

theorem rounds (h : Carries length f r) (n : Nat) : Carries length f^[n] (Rounds r n) := by
  induction n with
  | zero =>
      refine ⟨fun places _ j => ?_, fun i j heq hi => ?_⟩
      · simp [Rounds]
      · obtain rfl : i = j := heq
        exact hi
  | succ n ih =>
      have hcomp := ih.comp h
      rwa [show (fun places => f (f^[n] places)) = f^[n + 1] from
        funext fun places => (Function.iterate_succ_apply' f n places).symm] at hcomp

end Carries

theorem iterate_eq (f : Nat → Nat) (n places : Nat) : iterate f n places = f^[n] places := by
  induction n generalizing places with
  | zero => rfl
  | succ n ih =>
      rw [iterate]
      split
      · next hfixed => exact (Function.iterate_fixed hfixed (n + 1)).symm
      · rw [ih, Function.iterate_succ_apply]

theorem spread_eq (f : Nat → Nat) (origin n reached : Nat) :
    spread f origin n reached = (fun places => origin ||| f places)^[n] reached := by
  rw [← iterate_eq]
  induction n generalizing reached with
  | zero => rfl
  | succ n ih => simp only [spread, iterate, ih]

section Spread

variable {length origin : Nat} {f : Nat → Nat} {r : Nat → Nat → Prop}

/-- What is reached from the places of `origin` within so many rounds. -/
def reached (f : Nat → Nat) (origin n : Nat) : Nat := (fun places => origin ||| f places)^[n] origin

theorem reached_succ (f : Nat → Nat) (origin n : Nat) :
    reached f origin (n + 1) = origin ||| f (reached f origin n) :=
  Function.iterate_succ_apply' _ n origin

theorem testBit_reached (h : Carries length f r) (ho : Within length origin) (n : Nat) :
    Within length (reached f origin n) ∧ ∀ j, (reached f origin n).testBit j = true ↔
      ∃ i, origin.testBit i = true ∧ ∃ m ≤ n, Rounds r m i j := by
  induction n with
  | zero =>
      refine ⟨ho, fun j => ⟨fun hj => ⟨j, hj, 0, Nat.le_refl 0, rfl⟩, ?_⟩⟩
      rintro ⟨i, hi, m, hm, hr⟩
      obtain rfl : m = 0 := by omega
      obtain rfl : i = j := hr
      exact hi
  | succ n ih =>
      obtain ⟨hwithin, hbit⟩ := ih
      rw [reached_succ]
      refine ⟨fun j hj => ?_, fun j => ?_⟩
      · rw [Nat.testBit_or, Bool.or_eq_true] at hj
        exact hj.elim (ho j) (h.image_within hwithin j)
      · rw [Nat.testBit_or, Bool.or_eq_true, h.testBit _ hwithin]
        constructor
        · rintro (hj | ⟨k, hk, hr⟩)
          · exact ⟨j, hj, 0, Nat.zero_le _, rfl⟩
          · obtain ⟨i, hi, m, hm, hrounds⟩ := (hbit k).mp hk
            exact ⟨i, hi, m + 1, by omega, k, hrounds, hr⟩
        · rintro ⟨i, hi, m, hm, hrounds⟩
          cases m with
          | zero =>
              obtain rfl : i = j := hrounds
              exact .inl hi
          | succ m =>
              obtain ⟨k, hk, hr⟩ := hrounds
              exact .inr ⟨k, (hbit k).mpr ⟨i, hi, m, by omega, hk⟩, hr⟩

/-- The places of a set. -/
def placesOf (length n : Nat) : Finset Nat := (Finset.range (length + 1)).filter (n.testBit ·)

theorem eq_of_placesOf {a b : Nat} (ha : Within length a) (hb : Within length b)
    (h : placesOf length a = placesOf length b) : a = b := by
  refine Nat.eq_of_testBit_eq fun i => Bool.eq_iff_iff.mpr ?_
  have hi : i ∈ placesOf length a ↔ i ∈ placesOf length b := by rw [h]
  simp only [placesOf, Finset.mem_filter, Finset.mem_range] at hi
  constructor
  · exact fun hbit => (hi.mp ⟨Nat.lt_succ_of_le (ha i hbit), hbit⟩).2
  · exact fun hbit => (hi.mpr ⟨Nat.lt_succ_of_le (hb i hbit), hbit⟩).2

/-- A set of places grows less often than there are places. -/
theorem reached_eq (h : Carries length f r) (ho : Within length origin) {n : Nat}
    (hn : length + 1 ≤ n) : reached f origin n = reached f origin (length + 1) := by
  have hwithin (n : Nat) := (testBit_reached h ho n).1
  have hsubset {m n : Nat} (hmn : m ≤ n) :
      placesOf length (reached f origin m) ⊆ placesOf length (reached f origin n) := by
    intro i hi
    simp only [placesOf, Finset.mem_filter, (testBit_reached h ho _).2] at hi ⊢
    obtain ⟨hrange, k, hk, l, hl, hrounds⟩ := hi
    exact ⟨hrange, k, hk, l, Nat.le_trans hl hmn, hrounds⟩
  have hsame {m n : Nat} (hmn : m ≤ n)
      (hcard : (placesOf length (reached f origin m)).card =
        (placesOf length (reached f origin n)).card) :
      reached f origin m = reached f origin n :=
    eq_of_placesOf (hwithin m) (hwithin n)
      (Finset.eq_of_subset_of_card_le (hsubset hmn) (Nat.le_of_eq hcard.symm))
  refine (hsame hn (Eq.symm ?_)).symm
  refine Nat.stabilises_of_monotone (fun m n hmn => Finset.card_le_card (hsubset hmn))
    (fun m => ?_) (fun m hm => ?_) hn
  · exact Nat.le_trans (Finset.card_filter_le _ _) (Nat.le_of_eq (Finset.card_range _))
  · have heq := hsame (Nat.le_succ m) hm
    rw [reached_succ f origin (m + 1), ← heq, ← reached_succ]
    exact hm

theorem Carries.times (h : Carries length f r) (least : Nat) (most : Option Nat) :
    Carries length
      (fun places =>
        let start := iterate f least places
        spread f start
          (match most with
          | none => length + 1
          | some most => min (most - least) (length + 1)) start)
      fun i j => ∃ n, least ≤ n ∧ (∀ m ∈ most, n ≤ max least m) ∧ Rounds r n i j where
  testBit origin ho j := by
    have hstart := h.rounds least
    rw [← funext (iterate_eq f least)] at hstart
    have hwithin := hstart.image_within ho
    have hreached (n : Nat) : (reached f (iterate f least origin) n).testBit j = true ↔
        ∃ i, origin.testBit i = true ∧ ∃ m ≤ n, Rounds r (least + m) i j := by
      rw [(testBit_reached h hwithin n).2]
      constructor
      · rintro ⟨k, hk, m, hm, hrounds⟩
        obtain ⟨i, hi, hleast⟩ := (hstart.testBit origin ho k).mp hk
        exact ⟨i, hi, m, hm, hleast.add hrounds⟩
      · rintro ⟨i, hi, m, hm, hrounds⟩
        obtain ⟨k, hleast, hmore⟩ := hrounds.split
        exact ⟨k, (hstart.testBit origin ho k).mpr ⟨i, hi, hleast⟩, m, hm, hmore⟩
    -- however many rounds are allowed, those after `length + 1` reach nothing new
    have hall (n : Nat) : (∃ i, origin.testBit i = true ∧ ∃ m ≤ n, Rounds r (least + m) i j) →
        ∃ i, origin.testBit i = true ∧ ∃ m ≤ length + 1, Rounds r (least + m) i j := by
      intro hn
      rcases Nat.le_total n (length + 1) with hle | hge
      · obtain ⟨i, hi, m, hm, hrounds⟩ := hn
        exact ⟨i, hi, m, Nat.le_trans hm hle, hrounds⟩
      · rw [← hreached, ← reached_eq h hwithin hge, hreached]
        exact hn
    show (spread f (iterate f least origin) _ (iterate f least origin)).testBit j = true ↔ _
    generalize hbound : (match most with
      | none => length + 1
      | some most => min (most - least) (length + 1)) = bound
    have hallowed (m : Nat) (hm : m ≤ bound) : ∀ k ∈ most, least + m ≤ max least k := by
      intro k hk
      rw [Option.mem_def.mp hk] at hbound
      simp only at hbound
      omega
    have hcovered (m : Nat) (hm : ∀ k ∈ most, least + m ≤ max least k) :
        m ≤ bound ∨ bound = length + 1 := by
      cases most with
      | none => exact .inr hbound.symm
      | some k =>
          have := hm k rfl
          simp only at hbound
          omega
    rw [spread_eq]
    show (reached f (iterate f least origin) bound).testBit j = true ↔ _
    rw [hreached]
    constructor
    · rintro ⟨i, hi, m, hm, hrounds⟩
      exact ⟨i, hi, least + m, Nat.le_add_right least m, hallowed m hm, hrounds⟩
    · rintro ⟨i, hi, n, hleast, hmost, hrounds⟩
      obtain ⟨m, rfl⟩ := Nat.exists_eq_add_of_le hleast
      rcases hcovered m hmost with hm | heq
      · exact ⟨i, hi, m, hm, hrounds⟩
      · rw [heq]
        exact hall m ⟨i, hi, m, Nat.le_refl m, hrounds⟩
  within i j := by
    rintro ⟨n, -, -, hrounds⟩ hi
    exact (h.rounds n).within i j hrounds hi

end Spread

/-! ## The whole pattern -/

theorem Expr.carries_on (text : List Char) (e : Expr) :
    Carries text.length ((e.on text).run text.length) (e.Spans text) := by
  induction e with
  | empty =>
      refine ⟨fun places _ j => ?_, fun i j heq hi => ?_⟩
      · simp [on, Moves.run, Spans]
      · obtain rfl : i = j := heq
        exact hi
  | chars set =>
      refine ⟨fun places _ j => ?_, ?_⟩
      · rw [on, Moves.run, Nat.testBit_shiftLeft, Bool.and_eq_true, decide_eq_true_eq,
          Nat.testBit_and, Bool.and_eq_true, testBit_charMask]
        constructor
        · rintro ⟨hj, hi, hc⟩
          exact ⟨j - 1, hi, by omega, hc⟩
        · rintro ⟨i, hi, rfl, hc⟩
          exact ⟨Nat.le_add_left 1 i, hi, hc⟩
      · rintro i j ⟨rfl, c, hc, -⟩ -
        exact (List.getElem?_eq_some_iff.mp hc).1
  | look condition =>
      refine ⟨fun places _ j => ?_, ?_⟩
      · rw [on, Moves.run, Nat.testBit_and, Bool.and_eq_true, Look.testBit_mask, Option.or_none]
        constructor
        · rintro ⟨hi, hlook⟩
          exact ⟨j, hi, rfl, hlook⟩
        · rintro ⟨i, hi, rfl, hlook⟩
          exact ⟨hi, hlook⟩
      · rintro i j ⟨rfl, -, -⟩ hi
        exact hi
  | capture body ih => exact ih
  | concat a b iha ihb => exact iha.comp ihb
  | choice a b iha ihb => exact iha.union ihb
  | repetition body least most ih => exact ih.times least most

/-- A match is found exactly where the pattern leads from one place to another. -/
theorem Expr.isMatch_iff (e : Expr) (text : List Char) :
    e.isMatch text = true ↔ ∃ i j, i ≤ text.length ∧ e.Spans text i j := by
  have hcarries := e.carries_on text
  have heverywhere (i : Nat) :
      ((1 <<< (text.length + 1)) - 1).testBit i = true ↔ i ≤ text.length := by
    rw [Nat.one_shiftLeft, Nat.testBit_two_pow_sub_one, decide_eq_true_eq, Nat.lt_succ_iff]
  have hwithin : Within text.length ((1 <<< (text.length + 1)) - 1) := fun i => (heverywhere i).mp
  rw [isMatch, bne_iff_ne]
  constructor
  · intro hne
    obtain ⟨j, hj⟩ := Nat.exists_testBit_of_ne_zero hne
    obtain ⟨i, hi, hspans⟩ := (hcarries.testBit _ hwithin j).mp hj
    exact ⟨i, j, (heverywhere i).mp hi, hspans⟩
  · rintro ⟨i, j, hi, hspans⟩ hzero
    have hj := (hcarries.testBit _ hwithin j).mpr ⟨i, (heverywhere i).mpr hi, hspans⟩
    rw [hzero, Nat.zero_testBit] at hj
    exact Bool.false_ne_true hj

end ParseView.Pattern
