import ParseView.Proofs.CaseFolding
import ParseView.Proofs.WrittenClass

/-!
# What the sets with a letter of their own match

A shorthand is written as a class of ASCII characters, or of blanks, and alone or as the one
member of a class it matches a text that has one of its characters. Where the flag `i` is on,
the engine closes the class under case before anything else. Digits and blanks have no case,
but two characters outside ASCII differ by case from a letter in it, the long s and the sign of
the Kelvin, so the class of words holds them as well and its complement does not.

That the pattern is accepted at all has to be shown too, since the engine refuses what grows
too large. The intervals of the set are named first, by the canonical form where case is
ignored, and then the size is a computation.
-/

namespace ParseView.Regexp

open Pattern (CaseClosed Canonical CharSet ClassItem Expr Interval Mode Reads Term inIntervals)

/-! ## The characters of a shorthand -/

/-- The characters outside ASCII that case makes equal to a letter in it. -/
def caseTwins : List Char := ['\u017F', '\u212A']

/-- What a shorthand holds: its own characters, and where case is ignored those that are
equal to a letter of a word. -/
def ShortClass.HoldsUnder (ignoreCase : Bool) (members : ShortClass) (code : Nat) : Prop :=
  members.Holds code ∨
    ignoreCase = true ∧ members = .word ∧ code ∈ caseTwins.map Char.toNat

def ShortClass.intervals : ShortClass → List Interval
  | .digit => [(48, 57)]
  | .word => [(48, 57), (65, 90), (95, 95), (97, 122)]
  | .space =>
    [(9, 13), (32, 32), (0xA0, 0xA0), (0x1680, 0x1680), (0x2000, 0x200A), (0x2028, 0x2029),
      (0x202F, 0x202F), (0x205F, 0x205F), (0x3000, 0x3000), (0xFEFF, 0xFEFF)]

/-- The intervals of the set closed under case. -/
def ShortClass.closedIntervals : ShortClass → List Interval
  | .word => [(48, 57), (65, 90), (95, 95), (97, 122), (0x17F, 0x17F), (0x212A, 0x212A)]
  | members => members.intervals

theorem ShortClass.inIntervals_iff (members : ShortClass) (code : Nat) :
    inIntervals members.intervals code = true ↔ members.Holds code := by
  cases members with
  | digit => simp [intervals, inIntervals, Holds]
  | word =>
      simp [intervals, inIntervals, Holds]
      omega
  | space =>
      simp [intervals, inIntervals, Holds]
      omega

theorem ShortClass.inClosedIntervals_iff (members : ShortClass) (code : Nat) :
    inIntervals members.closedIntervals code = true ↔ members.HoldsUnder true code := by
  cases members with
  | digit => simpa [HoldsUnder, closedIntervals] using inIntervals_iff .digit code
  | word =>
      have hword := inIntervals_iff .word code
      simp [closedIntervals, intervals, inIntervals, HoldsUnder, caseTwins] at hword ⊢
      rw [← hword]
      omega
  | space => simpa [HoldsUnder, closedIntervals] using inIntervals_iff .space code

theorem ShortClass.caseClosed (members : ShortClass) :
    CaseClosed fun code => inIntervals members.closedIntervals code = true := by
  refine Pattern.caseClosed_of_runs ?_
  cases members <;> decide +kernel

/-- Each of the two characters is in a case class with a letter. -/
theorem caseTwins_reached : ∀ code ∈ caseTwins.map Char.toNat, ∃ least,
    (code, least) ∈ Pattern.casePairs ∧ least ∈ Text.caseClass code ∧
      inIntervals ShortClass.word.intervals least = true := by
  intro code hcode
  simp only [caseTwins, List.map_cons, List.map_nil, List.mem_cons, List.not_mem_nil,
    or_false] at hcode
  rcases hcode with rfl | rfl
  · exact ⟨'S'.toNat, by decide +kernel, by decide +kernel, by decide⟩
  · exact ⟨'K'.toNat, by decide +kernel, by decide +kernel, by decide⟩

/-! ## Sets and their sizes -/

/-- A range from left to right without surrogates. -/
def IsWhole : ClassItem → Prop
  | .range low high =>
    low.toNat ≤ high.toNat ∧ (high.toNat < 0xD800 ∨ 0xE000 ≤ low.toNat)
  | .nested .. => False

/-- The set of such ranges has the canonical intervals of their codes. -/
theorem exists_set_of_whole {mode : Mode} (hunicode : mode.unicode = true) {items : List ClassItem}
    (h : ∀ item ∈ items, IsWhole item) : ∃ set, mode.items items = some set ∧
      Canonical set.intervals ∧
      ∀ code, inIntervals set.intervals code = true ↔ ClassItem.AnyHolds items code := by
  induction items with
  | nil =>
      refine ⟨.empty, by rw [Mode.items], ⟨nofun, .nil⟩, fun code => ?_⟩
      simp [CharSet.intervals, inIntervals, ClassItem.AnyHolds]
  | cons item items ih =>
      obtain ⟨hitem, hrest⟩ := List.forall_mem_cons.mp h
      obtain ⟨others, hothers, hcanonical, hcodes⟩ := ih hrest
      cases item with
      | nested negated inner => exact hitem.elim
      | range low high =>
          have hfilled : ∀ i ∈ (low.toNat, high.toNat) :: others.intervals, i.1 ≤ i.2 :=
            List.forall_mem_cons.mpr ⟨hitem.1, hcanonical.filled⟩
          have hunion : (CharSet.union (.range low.toNat high.toNat) others).intervals =
              Pattern.normalizeIntervals ((low.toNat, high.toNat) :: others.intervals) := by
            rw [CharSet.intervals, CharSet.intervals, if_pos hitem.1,
              Pattern.dropSurrogates_eq hitem.1 hitem.2, List.singleton_append]
          obtain ⟨hnormal, hin⟩ := Pattern.normalizeIntervals_canonical hfilled
          refine ⟨.union (.range low.toNat high.toNat) others, ?_, ?_, fun code => ?_⟩
          · simp [Mode.items, Mode.item, hunicode, hothers]
          · rw [hunion]
            exact hnormal
          · rw [hunion, hin, Pattern.inIntervals_cons, hcodes]
            exact Iff.rfl

theorem ShortClass.whole (members : ShortClass) : ∀ item ∈ members.items, IsWhole item := by
  cases members <;> simp [items, IsWhole]

/-- The intervals of a shorthand, closed under case if case is ignored. -/
def ShortClass.intervalsUnder (ignoreCase : Bool) (members : ShortClass) : List Interval :=
  if ignoreCase then members.closedIntervals else members.intervals

/-- And those of all other characters. -/
def ShortClass.gapsUnder (ignoreCase : Bool) (members : ShortClass) : List Interval :=
  (Pattern.gapsFrom 0 (members.intervalsUnder ignoreCase)).flatMap Pattern.dropSurrogates

theorem ShortClass.canonical (ignoreCase : Bool) (members : ShortClass) :
    Canonical (members.intervalsUnder ignoreCase) ∧ Canonical (members.gapsUnder ignoreCase) := by
  cases members <;> cases ignoreCase <;>
    exact ⟨⟨by decide, by decide⟩, ⟨by decide, by decide⟩⟩

theorem ShortClass.exists_set {mode : Mode} (hunicode : mode.unicode = true)
    (members : ShortClass) : ∃ set, mode.items members.items = some set ∧
      set.intervals = members.intervals := by
  obtain ⟨set, hset, hcanonical, hcodes⟩ := exists_set_of_whole hunicode members.whole
  refine ⟨set, hset, hcanonical.ext (members.canonical false).1 fun code => ?_⟩
  rw [hcodes, members.anyHolds_items]
  exact (members.inIntervals_iff code).symm

theorem ShortClass.gaps_caseClosed (members : ShortClass) :
    CaseClosed fun code => inIntervals (members.gapsUnder true) code = true := by
  refine Pattern.caseClosed_gaps (members.canonical true).1 ?_ members.caseClosed
  cases members <;> decide

theorem ShortClass.intervals_fold {mode : Mode} (hunicode : mode.unicode = true)
    (members : ShortClass) {set : CharSet} (hset : set.intervals = members.intervals) :
    (mode.fold set).intervals = members.intervalsUnder mode.ignoreCase := by
  cases hcase : mode.ignoreCase with
  | false =>
      have hfold : mode.fold set = set := by simp [Mode.fold, hcase]
      rw [hfold]
      exact hset
  | true =>
      have hfold : mode.fold set = .folded set := by simp [Mode.fold, hcase, hunicode]
      rw [hfold, CharSet.intervals, hset]
      refine Pattern.foldIntervals_eq (members.canonical false).1.filled (members.canonical true).1
        members.caseClosed (fun code h => ?_) fun code h => ?_
      · exact (members.inClosedIntervals_iff code).mpr (.inl ((members.inIntervals_iff code).mp h))
      · rcases (members.inClosedIntervals_iff code).mp h with hcode | ⟨-, rfl, hcode⟩
        · exact .inl ((members.inIntervals_iff code).mpr hcode)
        · obtain ⟨least, hpair, -, hleast⟩ := caseTwins_reached code hcode
          exact .inr ⟨least, hpair, hleast⟩

/-- Once more behind the complement, closing it changes nothing. -/
theorem ShortClass.intervals_fold_gaps {mode : Mode} (hunicode : mode.unicode = true)
    (members : ShortClass) {set : CharSet}
    (hset : set.intervals = members.gapsUnder mode.ignoreCase) :
    (mode.fold (.union set .empty)).intervals = members.gapsUnder mode.ignoreCase := by
  have hcanonical := (members.canonical mode.ignoreCase).2
  have hunion : (CharSet.union set .empty).intervals = members.gapsUnder mode.ignoreCase := by
    rw [CharSet.intervals, hset, CharSet.intervals, List.append_nil]
    exact Pattern.normalizeIntervals_eq_of_codes hcanonical.filled hcanonical fun _ => Iff.rfl
  cases hcase : mode.ignoreCase with
  | false => simpa [Mode.fold, hcase] using hunion
  | true =>
      have hfold : mode.fold (.union set .empty) = .folded (.union set .empty) := by
        simp [Mode.fold, hcase, hunicode]
      rw [hcase] at hunion hcanonical
      rw [hfold, CharSet.intervals, hunion]
      exact Pattern.foldIntervals_of_closed hcanonical members.gaps_caseClosed

/-- Neither of the two lists makes a set that is too large. -/
theorem ShortClass.fits {members : ShortClass} {ignoreCase : Bool} {set : CharSet}
    (h : set.intervals = members.intervalsUnder ignoreCase ∨
      set.intervals = members.gapsUnder ignoreCase) :
    (Pattern.Simple.ofSet set.intervals).fits = true := by
  rcases h with h | h
  · rw [h]
    cases members <;> cases ignoreCase <;> decide +kernel
  · rw [h]
    cases members <;> cases ignoreCase <;> decide +kernel

section Bracket

variable {mode : Mode} (hunicode : mode.unicode = true) (members : ShortClass)

include hunicode

theorem ShortClass.exists_bracket (negated : Bool) : ∃ set,
    mode.bracket negated members.items = some set ∧
      (Pattern.Simple.ofSet set.intervals).fits = true ∧
      (negated = true → set.intervals = members.gapsUnder mode.ignoreCase) := by
  obtain ⟨set, hset, hintervals⟩ := members.exists_set hunicode
  have hfold := members.intervals_fold hunicode hintervals
  cases negated with
  | false => exact ⟨mode.fold set, by simp [Mode.bracket, hset], fits (.inl hfold), nofun⟩
  | true =>
      have hgaps : (CharSet.complement (mode.fold set)).intervals =
          members.gapsUnder mode.ignoreCase := by
        rw [CharSet.intervals, hfold, gapsUnder]
      exact ⟨.complement (mode.fold set), by simp [Mode.bracket, hset, hunicode],
        fits (.inr hgaps), fun _ => hgaps⟩

/-- The same where the complement is a class of its own inside a class. -/
theorem ShortClass.exists_bracket_nested : ∃ set,
    mode.bracket false [.nested true members.items] = some set ∧
      (Pattern.Simple.ofSet set.intervals).fits = true := by
  obtain ⟨set, hset, -, hgaps⟩ := members.exists_bracket hunicode true
  refine ⟨mode.fold (.union set .empty), ?_,
    fits (.inr (members.intervals_fold_gaps hunicode (hgaps rfl)))⟩
  simp [Mode.bracket, Mode.items, Mode.item, hset]

end Bracket

/-! ## What a shorthand holds for the engine -/

section Meaning

variable (mode : Mode) (members : ShortClass) (code : Nat)

theorem ShortClass.anyHoldsIn_items :
    ClassItem.AnyHoldsIn mode members.items code ↔ members.Holds code := by
  refine Iff.trans ?_ (members.anyHolds_items code)
  cases members <;> exact Iff.rfl

theorem ShortClass.closes_iff :
    mode.Closes (fun other => ClassItem.AnyHoldsIn mode members.items other) code ↔
      members.HoldsUnder mode.ignoreCase code := by
  refine (Mode.Closes.congr (members.anyHoldsIn_items mode) code).trans ?_
  cases hcase : mode.ignoreCase with
  | false => simp [Mode.Closes, HoldsUnder, hcase]
  | true =>
      refine (members.caseClosed.closes_iff hcase ?_ ?_ code).trans
        (members.inClosedIntervals_iff code)
      · exact fun other hholds => (members.inClosedIntervals_iff other).mpr (.inl hholds)
      · intro other hin
        rcases (members.inClosedIntervals_iff other).mp hin with hholds | ⟨-, rfl, htwin⟩
        · exact .inl hholds
        · obtain ⟨least, -, hclass, hleast⟩ := caseTwins_reached other htwin
          exact .inr ⟨least, hclass, (ShortClass.word.inIntervals_iff least).mp hleast⟩

/-- Where case is ignored the complement is closed as well, so a class around it adds nothing. -/
theorem ShortClass.holdsIn_nested :
    (ClassItem.nested false [.nested true members.items]).HoldsIn mode code ↔
      ¬ members.HoldsUnder mode.ignoreCase code := by
  have hinner (other : Nat) : ClassItem.AnyHoldsIn mode [.nested true members.items] other ↔
      ¬ members.HoldsUnder mode.ignoreCase other := by
    simpa [ClassItem.AnyHoldsIn, ClassItem.HoldsIn] using
      not_congr (members.closes_iff mode other)
  refine (Mode.Closes.congr hinner code).trans ?_
  cases hcase : mode.ignoreCase with
  | false => simp [Mode.Closes, hcase]
  | true =>
      have hclosed : CaseClosed (members.HoldsUnder true) := fun pair hpair =>
        (members.inClosedIntervals_iff _).symm.trans
          ((members.caseClosed pair hpair).trans (members.inClosedIntervals_iff _))
      exact hclosed.not.closes_self mode code

end Meaning

/-! ## Shorthands that are compiled -/

/-- A pattern that the engine reads as one class, not too large and not nested too deeply, is
compiled and matches where a character of the class stands. -/
theorem exists_compiled {pattern text : String} {flags : Flags}
    (hflags : Flags.ofText? text = some flags) {negated : Bool} {body : List Char}
    {items : List ClassItem} {set : CharSet}
    (hpattern : enginePattern? flags pattern.toList = some (bracketText negated body))
    (hreads : Reads false body items) (hne : items ≠ []) (hdepth : ClassItem.depths items + 2 ≤ Pattern.depthLimit)
    (hset : flags.mode.bracket negated items = some set)
    (hfits : (Pattern.Simple.ofSet set.intervals).fits = true) :
    ∃ r, compile? ⟨pattern, text⟩ = some r ∧ ∀ haystack : String, r.isMatch haystack = true ↔
      ∃ c ∈ haystack.toList, (ClassItem.nested negated items).HoldsIn flags.mode c.toNat := by
  have hterm : Term.ofText? (bracketText negated body) = some (.bracket negated items) :=
    ofText?_of_reads hreads hne negated hdepth
  have hprogram : program? flags.mode (bracketText negated body) = some (.chars set) := by
    simp [program?, hterm, Term.resolve, Term.fits, Term.simplify, hset, hfits]
  have hcompile : compile? ⟨pattern, text⟩ =
      some ⟨pattern, flags, String.ofList (bracketText negated body), .chars set⟩ := by
    simp [compile?, hflags, hpattern, hprogram]
  exact ⟨_, hcompile, isMatch_iff_of_denotes hcompile hflags hpattern (hreads.denotes rfl negated hne)⟩

/-- A shorthand alone, or as the one member of a class. -/
def IsShorthand (letter : Char) (pattern : List Char) : Prop :=
  pattern = ['\\', letter] ∨ pattern = ['[', '\\', letter, ']']

section Shorthand

variable {letter : Char} {members : ShortClass} {negated : Bool} {pattern text : String}
  {flags : Flags}

/-- Only a complement is written otherwise when brackets are around it. -/
theorem enginePattern?_shorthand (hletter : (letter, members, negated) ∈ shorthands)
    (hpattern : IsShorthand letter pattern.toList) (flags : Flags) :
    enginePattern? flags pattern.toList = some (bracketText negated members.text) ∨
      negated = true ∧ enginePattern? flags pattern.toList =
        some (bracketText false (bracketText true members.text)) := by
  rcases hpattern with hpattern | hpattern
  · have htoken : TokenText flags ['\\', letter] (.escape (.set members negated)) [] :=
      .escape (.set hletter [])
    rw [hpattern, htoken.enginePattern?]
    exact .inl rfl
  · have hatoms : Splits (AtomText flags.unicode) (['\\', letter] ++ [']'])
        [.set members negated] [']'] :=
      .cons (AtomText.escape (.set hletter [']']) rfl) (.nil [']'])
    have hcaret : false = false → ['\\', letter].head? ≠ some '^' := fun _ => by simp
    have htoken : TokenText flags ['[', '\\', letter, ']'] (.bracket false [.set members negated])
        [] :=
      .bracket hcaret hatoms (List.forall_mem_singleton.mpr trivial)
    have htext : (Token.bracket false [.set members negated]).text =
        bracketText false (Member.set members negated).text := by
      rw [← List.flatMap_singleton Member.text]
      rfl
    rw [hpattern, htoken.enginePattern?, htext]
    cases negated with
    | false => exact .inl rfl
    | true => exact .inr ⟨rfl, rfl⟩

theorem isMatch_shorthand (hletter : (letter, members, negated) ∈ shorthands)
    (hpattern : IsShorthand letter pattern.toList) (hflags : Flags.ofText? text = some flags) :
    ∃ r, compile? ⟨pattern, text⟩ = some r ∧ ∀ haystack : String, r.isMatch haystack = true ↔
      ∃ c ∈ haystack.toList,
        if negated then ¬ members.HoldsUnder flags.ignoreCase c.toNat
        else members.HoldsUnder flags.ignoreCase c.toNat := by
  have hdepth {items : List ClassItem} (h : ClassItem.depths items ≤ 2) :
      ClassItem.depths items + 2 ≤ Pattern.depthLimit := by
    rw [Pattern.depthLimit]
    omega
  rcases enginePattern?_shorthand hletter hpattern flags with htext | ⟨rfl, htext⟩
  · obtain ⟨set, hset, hfits, -⟩ := members.exists_bracket (rfl : flags.mode.unicode = true) negated
    obtain ⟨r, hr, hmatch⟩ := exists_compiled hflags htext members.itemsText.reads
      members.items_ne_nil (hdepth (Member.depths_items_le (.set members false))) hset hfits
    refine ⟨r, hr, fun haystack => (hmatch haystack).trans (exists_congr fun c => ?_)⟩
    refine and_congr_right fun _ => ?_
    cases negated with
    | false => exact members.closes_iff flags.mode c.toNat
    | true => exact not_congr (members.closes_iff flags.mode c.toNat)
  · obtain ⟨set, hset, hfits⟩ := members.exists_bracket_nested (rfl : flags.mode.unicode = true)
    obtain ⟨r, hr, hmatch⟩ := exists_compiled hflags htext
      (members.itemsText.reads.nested members.items_ne_nil) (List.cons_ne_nil _ _) (hdepth (Member.depths_items_le (.set members true))) hset hfits
    refine ⟨r, hr, fun haystack => (hmatch haystack).trans (exists_congr fun c => ?_)⟩
    exact and_congr_right fun _ => members.holdsIn_nested flags.mode c.toNat

/-- Neither of the two characters is one of a word itself. -/
theorem not_holds_of_mem_caseTwins {c : Char} (hc : c ∈ caseTwins) :
    ¬ ShortClass.word.Holds c.toNat := by
  simp only [caseTwins, List.mem_cons, List.not_mem_nil, or_false] at hc
  rcases hc with rfl | rfl <;> simp [ShortClass.Holds]

/-- Two sets that differ in characters that only the first one has agree about a text, unless
it has such a character and no other one there is in the second set. -/
theorem exists_agree_iff {p q : Char → Prop} {twins : List Char} (chars : List Char)
    (hsame : ∀ c ∉ twins, (p c ↔ q c)) (hin : ∀ c ∈ twins, p c) (hout : ∀ c ∈ twins, ¬ q c) :
    ((∃ c ∈ chars, p c) ↔ ∃ c ∈ chars, q c) ↔
      ((∃ c ∈ chars, c ∈ twins) → ∃ c ∈ chars, c ∉ twins ∧ q c) := by
  constructor
  · intro hagree htwins
    obtain ⟨c, hc, hmem⟩ := htwins
    obtain ⟨d, hd, hq⟩ := hagree.mp ⟨c, hc, hin c hmem⟩
    exact ⟨d, hd, fun hmem' => hout d hmem' hq, hq⟩
  · intro hdecides
    constructor
    · intro hfirst
      obtain ⟨c, hc, hp⟩ := hfirst
      by_cases hmem : c ∈ twins
      · obtain ⟨d, hd, -, hq⟩ := hdecides ⟨c, hc, hmem⟩
        exact ⟨d, hd, hq⟩
      · exact ⟨c, hc, (hsame c hmem).mp hp⟩
    · intro hsecond
      obtain ⟨c, hc, hq⟩ := hsecond
      exact ⟨c, hc, (hsame c fun hmem => hout c hmem hq).mpr hq⟩

/-- Some character is in the set closed under case if and only if some is in the set itself,
unless only one of the two tells them apart. -/
theorem exists_holdsUnder_iff (ignoreCase negated : Bool) (members : ShortClass)
    (chars : List Char) :
    ((∃ c ∈ chars, if negated then ¬ members.HoldsUnder ignoreCase c.toNat
        else members.HoldsUnder ignoreCase c.toNat) ↔
      ∃ c ∈ chars, (ClassAtom.set members negated).Holds c.toNat) ↔
    (ignoreCase = true → members = .word → (∃ c ∈ chars, c ∈ caseTwins) →
      ∃ c ∈ chars, c ∉ caseTwins ∧ (ClassAtom.set members negated).Holds c.toNat) := by
  have htwin (c : Char) : c.toNat ∈ caseTwins.map Char.toNat ↔ c ∈ caseTwins :=
    List.mem_map_of_injective fun a b => Char.toNat_inj.mp
  by_cases hword : ignoreCase = true ∧ members = .word
  · obtain ⟨rfl, rfl⟩ := hword
    have hfolded (c : Char) :
        ShortClass.word.HoldsUnder true c.toNat ↔ ShortClass.word.Holds c.toNat ∨ c ∈ caseTwins := by
      simp [ShortClass.HoldsUnder, htwin]
    have hsame (c : Char) (hmem : c ∉ caseTwins) :
        ShortClass.word.HoldsUnder true c.toNat ↔ ShortClass.word.Holds c.toNat :=
      (hfolded c).trans (or_iff_left hmem)
    have hin (c : Char) (hmem : c ∈ caseTwins) : ShortClass.word.HoldsUnder true c.toNat :=
      (hfolded c).mpr (.inr hmem)
    have hout (c : Char) (hmem : c ∈ caseTwins) : ¬ ShortClass.word.Holds c.toNat :=
      not_holds_of_mem_caseTwins hmem
    cases negated with
    | false => simpa [ClassAtom.Holds] using exists_agree_iff chars hsame hin hout
    | true =>
        -- of the complements it is the one of the set itself that has more
        have hagree := exists_agree_iff chars (fun c hmem => (not_congr (hsame c hmem)).symm) hout
          fun c hmem => not_not_intro (hin c hmem)
        have hothers : (∃ c ∈ chars, c ∉ caseTwins ∧ ¬ ShortClass.word.HoldsUnder true c.toNat) ↔
            ∃ c ∈ chars, c ∉ caseTwins ∧ ¬ ShortClass.word.Holds c.toNat :=
          exists_congr fun c => and_congr_right fun _ =>
            and_congr_right fun hmem => not_congr (hsame c hmem)
        rw [hothers, iff_comm (a := ∃ c ∈ chars, ¬ ShortClass.word.Holds c.toNat)] at hagree
        simpa [ClassAtom.Holds] using hagree
  · have hsame (code : Nat) : members.HoldsUnder ignoreCase code ↔ members.Holds code :=
      ⟨fun h => h.resolve_right fun hfolded => hword ⟨hfolded.1, hfolded.2.1⟩, Or.inl⟩
    simp only [hsame]
    exact iff_of_true Iff.rfl fun hcase hmembers => absurd ⟨hcase, hmembers⟩ hword

/-- A shorthand is accepted under all flags, alone and as the one member of a class. It matches
where one of its characters stands, and if case is ignored a set of words holds two more, which
its complement then lacks. So it goes by its own characters unless one of these two stands in
the text and no other character there decides. -/
theorem shorthand_matches_iff (hletter : (letter, members, negated) ∈ shorthands)
    (hpattern : IsShorthand letter pattern.toList) (hflags : Flags.ofText? text = some flags) :
    ∃ r, compile? ⟨pattern, text⟩ = some r ∧ ∀ haystack : String,
      (r.isMatch haystack = true ↔ ∃ c ∈ haystack.toList,
        if negated then ¬ members.HoldsUnder flags.ignoreCase c.toNat
        else members.HoldsUnder flags.ignoreCase c.toNat) ∧
      ((r.isMatch haystack = true ↔
          ∃ c ∈ haystack.toList, (ClassAtom.set members negated).Holds c.toNat) ↔
        (flags.ignoreCase = true → members = .word → (∃ c ∈ haystack.toList, c ∈ caseTwins) →
          ∃ c ∈ haystack.toList, c ∉ caseTwins ∧
            (ClassAtom.set members negated).Holds c.toNat)) := by
  obtain ⟨r, hr, hmatch⟩ := isMatch_shorthand hletter hpattern hflags
  refine ⟨r, hr, fun haystack => ⟨hmatch haystack, ?_⟩⟩
  rw [hmatch haystack]
  exact exists_holdsUnder_iff flags.ignoreCase negated members haystack.toList

end Shorthand

/-- Digits in a class, where case is ignored. -/
theorem shorthand_matches_digits :
    ∃ r, compile? ⟨"[\\d]", "gi"⟩ = some r ∧ r.isMatch "v7" = true := by
  have hflags : Flags.ofText? "gi" = some { isGlobal := true, ignoreCase := true } := by decide
  have hletter : ('d', ShortClass.digit, false) ∈ shorthands := by decide
  have hpattern : IsShorthand 'd' "[\\d]".toList := .inr (by decide)
  obtain ⟨r, hr, hmatch⟩ := shorthand_matches_iff hletter hpattern hflags
  exact ⟨r, hr, (hmatch "v7").1.mpr ⟨'7', by decide, .inl ⟨by decide, by decide⟩⟩⟩

/-- But where case is ignored, the set of ASCII words matches the long s, and its complement
does not match the sign of the Kelvin. -/
theorem shorthand_matches_beyond_ascii :
    (∃ r, compile? ⟨"\\w", "i"⟩ = some r ∧ r.isMatch "\u017F" = true) ∧
      ¬ (∃ c ∈ "\u017F".toList, ShortClass.word.Holds c.toNat) ∧
      (∃ r, compile? ⟨"[\\W]", "i"⟩ = some r ∧ r.isMatch "\u212A" = false) ∧
      ∃ c ∈ "\u212A".toList, ¬ ShortClass.word.Holds c.toNat := by
  have hflags : Flags.ofText? "i" = some { ignoreCase := true } := by decide
  have hnot (c : Char) (hc : c ∈ caseTwins) := not_holds_of_mem_caseTwins hc
  refine ⟨?_, ?_, ?_, '\u212A', by decide, hnot _ (by decide)⟩
  · have hpattern : IsShorthand 'w' "\\w".toList := .inl (by decide)
    have hletter : ('w', ShortClass.word, false) ∈ shorthands := by decide
    obtain ⟨r, hr, hmatch⟩ := isMatch_shorthand hletter hpattern hflags
    exact ⟨r, hr, (hmatch _).mpr ⟨'\u017F', by decide, .inr ⟨rfl, rfl, by decide⟩⟩⟩
  · intro hword
    obtain ⟨c, hc, hholds⟩ := hword
    obtain rfl : c = '\u017F' := by simpa using hc
    exact hnot _ (by decide) hholds
  · have hpattern : IsShorthand 'W' "[\\W]".toList := .inr (by decide)
    have hletter : ('W', ShortClass.word, true) ∈ shorthands := by decide
    obtain ⟨r, hr, hmatch⟩ := isMatch_shorthand hletter hpattern hflags
    refine ⟨r, hr, Bool.eq_false_iff.mpr fun hword => ?_⟩
    obtain ⟨c, hc, hout⟩ := (hmatch _).mp hword
    obtain rfl : c = '\u212A' := by simpa using hc
    exact hout (.inr ⟨rfl, rfl, by decide⟩)

end ParseView.Regexp
