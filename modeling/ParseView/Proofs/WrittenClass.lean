import Mathlib.Data.List.Chain
import ParseView.Proofs.PatternReading
import ParseView.Proofs.TokenReading

/-!
# No operator comes from the members of a class

What is written for a class is a sentence of a small grammar: a bracket, perhaps a caret,
pieces, a bracket. `CharPiece` says how a character may be written and `MemberPiece` how a
member may, so the grammar has no rule by which a sign of the source could get between the
brackets without a backslash.

Two things follow for every class, whatever its members are. `signs`, the operators of the
body that stand behind no backslash, are those of its ranges and of the lists that belong to
sets, in their order, and no two of them make an operator on sets. And the engine, wherever
it meets the class and whether or not it passes over blanks there, takes it as one class and
stops right behind its last bracket.

Both are shown for one piece and then for a run of pieces. For the signs this needs to know
that a piece neither begins nor ends with a dash, for the reading that it begins with nothing
that a verbose pattern passes over; the blank of the third list is the one exception, and
costs no more than a member.
-/

namespace ParseView.Regexp

open Pattern (CharText ClassItem PartsText Reading Reads Term)

/-! ## The grammar of a written class -/

/-- A mark that means something to the engine. -/
def IsMark (c : Char) : Prop := Text.isAsciiPunctuation c = true ∧ c ≠ '<' ∧ c ≠ '>'

/-- A character as it is written: behind a backslash, as its code, or as it is. -/
inductive CharPiece : List Char → Char → Prop where
  | mark {c : Char} (h : IsMark c) : CharPiece ['\\', c] c
  | code {digits : List Char} {c : Char} (hne : digits ≠ [])
      (h : Text.DigitRun 16 digits c.toNat) : CharPiece ('\\' :: 'x' :: '{' :: (digits ++ ['}'])) c
  | bare {c : Char} (hmark : ¬ IsMark c) (hblank : Text.isWhiteSpace c = false)
      (hcontrol : Text.isControl c = false) : CharPiece [c] c

/-- A member as it is written. Three lists are fixed, one for each set. -/
inductive MemberPiece : List Char → Member → Prop where
  | char {s : List Char} {c : Char} (h : CharPiece s c) : MemberPiece s (.char c)
  | range {s s' : List Char} {low high : Char} (hlow : CharPiece s low)
      (hhigh : CharPiece s' high) (hle : low ≤ high) : MemberPiece (s ++ '-' :: s') (.range low high)
  | list (members : ShortClass) : MemberPiece members.text (.set members false)
  | wrapped (members : ShortClass) :
      MemberPiece ('[' :: '^' :: (members.text ++ [']'])) (.set members true)

theorem charPiece_charText (c : Char) : CharPiece (charText c) c := by
  rw [charText]
  split
  · next h => exact .mark h
  split
  · exact .code (Pattern.hexText_digits_ne_nil c.toNat) (Pattern.digitRun_hexText c.toNat)
  · next hmark hplain =>
      simp only [not_or, Bool.not_eq_true] at hplain
      exact .bare hmark hplain.2 hplain.1

theorem memberPiece_text {m : Member} (h : m.Ordered) : MemberPiece m.text m := by
  cases m with
  | char c => exact .char (charPiece_charText c)
  | range low high =>
      exact .range (charPiece_charText low) (charPiece_charText high) (Char.not_lt.mp h)
  | set members negated =>
      cases negated with
      | false => exact .list members
      | true => exact .wrapped members

/-! ## Signs -/

/-- The operators of the engine inside a class. Those on sets are pairs of the last three. -/
def operators : List Char := ['[', ']', '^', '-', '&', '~']

/-- The characters of a text, with a gap for each backslash and the character behind it. -/
def bareChars : List Char → List (Option Char)
  | [] => []
  | '\\' :: _ :: rest => none :: bareChars rest
  | c :: rest => some c :: bareChars rest

def signsOf (bare : List (Option Char)) : List Char :=
  bare.filterMap fun c => c.filter (· ∈ operators)

/-- The operators that stand behind no backslash. -/
def signs (s : List Char) : List Char := signsOf (bareChars s)

def ShortClass.signs : ShortClass → List Char
  | .digit | .space => ['-']
  | .word => ['-', '-', '-']

/-- The signs of a member: the dash of a range, and what belongs to the list of a set. -/
def Member.signs : Member → List Char
  | .char _ => []
  | .range _ _ => ['-']
  | .set members false => members.signs
  | .set members true => '[' :: '^' :: (members.signs ++ [']'])

/-- No dash comes first or last, and none right behind another one. -/
structure Spaced (bare : List (Option Char)) : Prop where
  first : some '-' ∉ bare.head?
  last : some '-' ∉ bare.getLast?
  apart : bare.IsChain fun a b => a = some '-' → b ≠ some '-'

theorem Spaced.append {bare bare' : List (Option Char)} (h : Spaced bare) (h' : Spaced bare') :
    Spaced (bare ++ bare') := by
  refine ⟨?_, ?_, List.isChain_append.mpr ⟨h.apart, h'.apart, ?_⟩⟩
  · cases bare with
    | nil => exact h'.first
    | cons c bare => exact h.first
  · intro hlast
    rw [Option.mem_def, List.getLast?_append, Option.or_eq_some_iff] at hlast
    rcases hlast with hlast | ⟨-, hlast⟩
    · exact h'.last hlast
    · exact h.last hlast
  · intro a ha b hb hdash
    exact absurd (hdash ▸ ha) h.last

/-- A piece of text with these signs, well apart, that takes nothing from the text behind it. -/
def Tame (s : List Char) (found : List Char) : Prop :=
  ∃ bare, (∀ after, bareChars (s ++ after) = bare ++ bareChars after) ∧ signsOf bare = found ∧
    Spaced bare

theorem Tame.append {s s' found found' : List Char} (h : Tame s found) (h' : Tame s' found') :
    Tame (s ++ s') (found ++ found') := by
  obtain ⟨bare, hbare, rfl, hspaced⟩ := h
  obtain ⟨bare', hbare', rfl, hspaced'⟩ := h'
  refine ⟨bare ++ bare', fun after => ?_, List.filterMap_append, hspaced.append hspaced'⟩
  rw [List.append_assoc, hbare, hbare', List.append_assoc]

theorem bareChars_cons {c : Char} (h : c ≠ '\\') (rest : List Char) :
    bareChars (c :: rest) = some c :: bareChars rest := by
  rw [bareChars]
  exact fun _ _ hslash => absurd hslash h

theorem notMem_of_signsOf {bare : List (Option Char)} {c : Char} (hc : c ∈ operators)
    (h : c ∉ signsOf bare) : some c ∉ bare := fun hmem =>
  h (List.mem_filterMap.mpr ⟨some c, hmem, by simp [Option.filter, hc]⟩)

/-- Where no sign is, no dash is. -/
theorem spaced_of_signsOf {bare : List (Option Char)} (h : signsOf bare = []) : Spaced bare := by
  have hdash : some '-' ∉ bare := notMem_of_signsOf (by decide) (by simp [h])
  refine ⟨fun hhead => hdash (List.mem_of_mem_head? hhead),
    fun hlast => hdash (List.mem_of_mem_getLast? hlast), ?_⟩
  refine List.Pairwise.isChain (List.pairwise_of_forall_mem_list ?_)
  intro a ha b _ heq
  exact absurd (heq ▸ ha) hdash

theorem spaced_dash {low high : List (Option Char)} (hlow : signsOf low = []) (hlowNe : low ≠ [])
    (hhigh : signsOf high = []) (hhighNe : high ≠ []) : Spaced (low ++ some '-' :: high) := by
  have hlowSpaced := spaced_of_signsOf hlow
  have hhighSpaced := spaced_of_signsOf hhigh
  refine ⟨?_, ?_, ?_⟩
  · cases low with
    | nil => exact absurd rfl hlowNe
    | cons c low => exact hlowSpaced.first
  · cases high with
    | nil => exact absurd rfl hhighNe
    | cons c high =>
        rw [List.getLast?_append, List.getLast?_cons_cons, Option.or_of_isSome (by simp)]
        exact hhighSpaced.last
  · refine List.isChain_append.mpr ⟨hlowSpaced.apart, List.isChain_cons.mpr ⟨?_, hhighSpaced.apart⟩,
      fun a ha _ _ hdash => absurd (hdash ▸ ha) hlowSpaced.last⟩
    intro b hb _ hdash
    exact hhighSpaced.first (hdash ▸ hb)

/-! ### Of characters -/

/-- Neither a sign nor a backslash. -/
def IsPlain (c : Char) : Prop := c ∉ '\\' :: operators

instance (c : Char) : Decidable (IsPlain c) := inferInstanceAs (Decidable (c ∉ '\\' :: operators))

theorem isPlain_of_not_isMark {c : Char} (h : ¬ IsMark c) : IsPlain c := by
  have hmarks : ('\\' :: operators).all
      (fun d => Text.isAsciiPunctuation d && d != '<' && d != '>') = true := by
    decide
  intro hc
  exact h (by simpa [IsMark, and_assoc] using List.all_eq_true.mp hmarks c hc)

theorem isPlain_of_isHexDigit {c : Char} (h : Text.isHexDigit c = true) : IsPlain c := by
  have hdigits : ('\\' :: operators).all (fun d => !Text.isHexDigit d) = true := by decide
  intro hc
  have hnot := List.all_eq_true.mp hdigits c hc
  rw [h] at hnot
  exact Bool.false_ne_true hnot

theorem bareChars_append_of_isPlain {s : List Char} (h : ∀ c ∈ s, IsPlain c) (after : List Char) :
    bareChars (s ++ after) = s.map some ++ bareChars after := by
  induction s with
  | nil => rfl
  | cons c s ih =>
      obtain ⟨hc, hs⟩ := List.forall_mem_cons.mp h
      have hslash : c ≠ '\\' := fun heq => hc (heq ▸ .head _)
      rw [List.cons_append, bareChars_cons hslash, ih hs, List.map_cons, List.cons_append]

theorem signsOf_of_isPlain {s : List Char} (h : ∀ c ∈ s, IsPlain c) :
    signsOf (s.map some) = [] := by
  rw [signsOf, List.filterMap_map, List.filterMap_eq_nil_iff]
  intro c hc
  have hnot : c ∉ operators := fun hmem => h c hc (.tail _ hmem)
  simp [Option.filter, hnot]

/-- No sign is left of a character that is written. -/
theorem CharPiece.exists_bare {s : List Char} {c : Char} (h : CharPiece s c) :
    ∃ bare, (∀ after, bareChars (s ++ after) = bare ++ bareChars after) ∧ signsOf bare = [] ∧
      bare ≠ [] := by
  cases h with
  | mark => exact ⟨[none], fun _ => rfl, rfl, List.cons_ne_nil _ _⟩
  | @code digits _ hne h =>
      have hdigits := List.all_eq_true.mp (digitRun_iff.mp h).1
      have hplain : ∀ d ∈ '{' :: (digits ++ ['}']), IsPlain d := by
        intro d hd
        rw [List.mem_cons, List.mem_append, List.mem_singleton] at hd
        rcases hd with rfl | hd | rfl
        · decide
        · exact isPlain_of_isHexDigit (hdigits d hd)
        · decide
      refine ⟨none :: ('{' :: (digits ++ ['}'])).map some, fun after => ?_,
        signsOf_of_isPlain hplain, List.cons_ne_nil _ _⟩
      exact congrArg (none :: ·) (bareChars_append_of_isPlain hplain after)
  | bare hmark =>
      have hplain : ∀ d ∈ [c], IsPlain d :=
        List.forall_mem_singleton.mpr (isPlain_of_not_isMark hmark)
      exact ⟨[some c], bareChars_append_of_isPlain hplain, signsOf_of_isPlain hplain,
        List.cons_ne_nil _ _⟩

/-! ### Of members -/

theorem ShortClass.tame (members : ShortClass) : Tame members.text members.signs := by
  refine ⟨bareChars members.text, fun after => ?_, ?_, ?_⟩
  · cases members <;> rfl
  · cases members <;> rfl
  · cases members with
    | digit => exact ⟨by decide, by decide, by decide⟩
    | word => exact ⟨by decide, by decide, by decide⟩
    | space => exact ⟨by decide, by decide, by decide +kernel⟩

theorem MemberPiece.tame {s : List Char} {m : Member} (h : MemberPiece s m) : Tame s m.signs := by
  cases h with
  | char h =>
      obtain ⟨bare, hbare, hsigns, -⟩ := h.exists_bare
      exact ⟨bare, hbare, hsigns, spaced_of_signsOf hsigns⟩
  | range hlow hhigh =>
      obtain ⟨low, hlowBare, hlowSigns, hlowNe⟩ := hlow.exists_bare
      obtain ⟨high, hhighBare, hhighSigns, hhighNe⟩ := hhigh.exists_bare
      refine ⟨low ++ some '-' :: high, fun after => ?_, ?_,
        spaced_dash hlowSigns hlowNe hhighSigns hhighNe⟩
      · rw [List.append_assoc, hlowBare, List.cons_append, bareChars_cons (by decide), hhighBare,
          List.append_assoc]
        rfl
      · rw [signsOf, List.filterMap_append]
        exact congrArg₂ (· ++ '-' :: ·) hlowSigns hhighSigns
  | list members => exact members.tame
  | wrapped members =>
      have hopen : Tame ['[', '^'] ['[', '^'] :=
        ⟨[some '[', some '^'], fun _ => rfl, by decide, ⟨by decide, by decide, by decide⟩⟩
      have hclose : Tame [']'] [']'] :=
        ⟨[some ']'], fun _ => rfl, by decide, ⟨by decide, by decide, by decide⟩⟩
      exact hopen.append (members.tame.append hclose)

theorem tame_flatten {pieces : List (List Char)} {members : List Member}
    (h : List.Forall₂ MemberPiece pieces members) :
    Tame pieces.flatten (members.flatMap Member.signs) := by
  induction h with
  | nil => exact ⟨[], fun _ => rfl, rfl, spaced_of_signsOf rfl⟩
  | cons head tail ih => exact head.tame.append ih

theorem Member.signs_subset (m : Member) : m.signs ⊆ ['[', ']', '^', '-'] := by
  cases m with
  | char c => exact List.nil_subset _
  | range low high => exact (by decide : ['-'] ⊆ ['[', ']', '^', '-'])
  | set members negated =>
      cases members <;> cases negated <;> decide

/-- Two marks of one kind that would be an operator on sets are not left side by side. -/
theorem Tame.not_doubled {s found : List Char} (h : Tame s found)
    (hfound : found ⊆ ['[', ']', '^', '-']) {c : Char} (hc : c ∈ ['&', '-', '~']) :
    ¬ [some c, some c] <:+: bareChars s := by
  obtain ⟨bare, hbare, rfl, hspaced⟩ := h
  have hs : bareChars s = bare := by simpa [bareChars] using hbare []
  rw [hs]
  intro hinfix
  have hmem : some c ∈ bare := hinfix.subset (List.mem_cons_self ..)
  by_cases hdash : c = '-'
  · subst hdash
    have hpair := hspaced.apart.infix hinfix
    rw [List.isChain_cons_cons] at hpair
    exact hpair.1 rfl rfl
  · have hother : c ∈ ['&', '~'] := by simp_all
    have hoperator : c ∈ operators ∧ c ∉ ['[', ']', '^', '-'] := by
      simp only [List.mem_cons, List.not_mem_nil, or_false] at hother
      rcases hother with rfl | rfl <;> decide
    exact notMem_of_signsOf hoperator.1 (fun hsign => hoperator.2 (hfound hsign)) hmem

/-! ## How the engine reads the pieces -/

/-- What a verbose pattern does not pass over. -/
def Visible (s : List Char) : Prop :=
  ∃ first tail, s = first :: tail ∧ Text.isWhiteSpace first = false ∧ first ≠ '#'

theorem Visible.skipVerbose {s : List Char} (h : Visible s) (verbose : Bool) (after : List Char) :
    Pattern.skipVerbose verbose (s ++ after) = s ++ after := by
  obtain ⟨first, tail, rfl, hblank, hcomment⟩ := h
  exact Pattern.skipVerbose_cons hblank hcomment _

theorem CharPiece.charText {s : List Char} {c : Char} (h : CharPiece s c) : CharText s c := by
  cases h with
  | mark h => exact Pattern.charText_punctuation h.1 h.2
  | code hne h => exact Pattern.charText_code hne h
  | bare hmark =>
      have hplain := isPlain_of_not_isMark hmark
      simp only [IsPlain, operators, List.mem_cons, List.not_mem_nil, or_false, not_or] at hplain
      exact Pattern.charText_plain (by simp [Pattern.classMarks, Pattern.setOperators, hplain])

theorem CharPiece.visible {s : List Char} {c : Char} (h : CharPiece s c) : Visible s := by
  cases h with
  | mark => exact ⟨'\\', _, rfl, by decide, by decide⟩
  | code => exact ⟨'\\', _, rfl, by decide, by decide⟩
  | bare hmark hblank =>
      refine ⟨c, [], rfl, hblank, fun heq => hmark ?_⟩
      subst heq
      exact ⟨by decide, by decide, by decide⟩

section Verbose

variable {verbose : Bool} {s s' : List Char} {c low high : Char}

theorem reads_of_visible (h : CharText s c) (hvisible : Visible s) :
    Reads verbose s [.range c c] :=
  h.reads (hvisible.skipVerbose verbose)

theorem reads_range_of_visible (hlow : CharText s low) (hhigh : CharText s' high)
    (hle : low ≤ high) (hvisible : Visible s) : Reads verbose (s ++ '-' :: s') [.range low high] :=
  hlow.reads_range hhigh (Char.not_lt.mpr hle) (hvisible.skipVerbose verbose)

end Verbose

/-- A verbose pattern reads a blank of a class as nothing. -/
theorem reads_blank : Reads true [' '] [] := by
  have hsign (after : List Char) :
      Pattern.readSign true (' ' :: after) = Pattern.readSign true after := by
    have hskip : Pattern.skipVerbose true (' ' :: after) = Pattern.skipVerbose true after := by
      rw [Pattern.skipVerbose, if_pos rfl, if_pos (by decide)]
    rw [Pattern.readSign, hskip]
    rfl
  refine ⟨by decide, by decide, fun outer current after _ => ?_⟩
  show Pattern.readClass true outer current (' ' :: after) = Pattern.readClass true outer current after
  rw [Pattern.readClass.eq_def, hsign, ← Pattern.readClass.eq_def]

/-- The list of a set. A verbose pattern reads it without its blank. -/
theorem ShortClass.exists_reads (verbose : Bool) (members : ShortClass) :
    ∃ items, Reads verbose members.text items ∧ items ≠ [] ∧
      (verbose = false → items = members.items) := by
  have hplain {c : Char} (h : c ∉ '\\' :: Pattern.classMarks) : CharText [c] c :=
    Pattern.charText_plain h
  have hsign {c : Char} (h : Text.isWhiteSpace c = false ∧ c ≠ '#') : Visible [c] :=
    ⟨c, [], rfl, h⟩
  have hrange (low high : Char) (hle : low ≤ high) (hlow : low ∉ '\\' :: Pattern.classMarks)
      (hhigh : high ∉ '\\' :: Pattern.classMarks)
      (h : Text.isWhiteSpace low = false ∧ low ≠ '#') :
      Reads true ([low] ++ '-' :: [high]) [.range low high] :=
    reads_range_of_visible (hplain hlow) (hplain hhigh) hle (hsign h)
  have hslash (tail : List Char) : Visible ('\\' :: tail) := ⟨'\\', tail, rfl, by decide, by decide⟩
  have hletter (letter c : Char)
      (h : ∀ after, Pattern.readEscape (letter :: after) = some (c, after)) :
      Reads true ['\\', letter] [.range c c] :=
    reads_of_visible (Pattern.charText_escaped h) (hslash [letter])
  have hcode (c : Char) : Reads true (hexText c.toNat) [.range c c] :=
    reads_of_visible (Pattern.charText_hexText c) (hslash _)
  cases verbose with
  | false => exact ⟨members.items, members.itemsText.reads, members.items_ne_nil, fun _ => rfl⟩
  | true =>
      suffices h : ∃ items, Reads true members.text items ∧ items ≠ [] from
        h.imp fun items h => ⟨h.1, h.2, nofun⟩
      cases members with
      | digit =>
          exact ⟨_, hrange '0' '9' (by decide) (by decide) (by decide) (by decide),
            List.cons_ne_nil _ _⟩
      | word =>
          have hdigits := hrange '0' '9' (by decide) (by decide) (by decide) (by decide)
          have hupper := hrange 'A' 'Z' (by decide) (by decide) (by decide) (by decide)
          have hlower := hrange 'a' 'z' (by decide) (by decide) (by decide) (by decide)
          have hscore : Reads true ['_'] [.range '_' '_'] :=
            reads_of_visible (hplain (by decide)) (hsign (by decide))
          exact ⟨_, hdigits.append (hupper.append (hlower.append hscore)), List.cons_ne_nil _ _⟩
      | space =>
          have hspaces : Reads true (hexText 0x2000 ++ '-' :: hexText 0x200A)
              [.range '\u2000' '\u200A'] :=
            reads_range_of_visible (Pattern.charText_hexText '\u2000')
              (Pattern.charText_hexText '\u200A') (by decide) (hslash _)
          have hcontrols := (hletter 't' '\t' fun _ => rfl).append <|
            (hletter 'n' '\n' fun _ => rfl).append <| (hletter 'v' '\x0b' fun _ => rfl).append <|
            (hletter 'f' '\x0c' fun _ => rfl).append <| (hletter 'r' '\r' fun _ => rfl).append
              reads_blank
          have hcodes := (hcode '\u2028').append <| (hcode '\u2029').append <|
            (hcode '\u202F').append <| (hcode '\u205F').append <| (hcode '\u3000').append <|
            hcode '\uFEFF'
          exact ⟨_, hcontrols.append <| (hcode '\u00A0').append <| (hcode '\u1680').append <|
            hspaces.append hcodes, List.cons_ne_nil _ _⟩

/-- Whatever a member is, its piece is read as a part of the class. -/
theorem MemberPiece.exists_reads (verbose : Bool) {s : List Char} {m : Member} (h : MemberPiece s m) :
    ∃ items, Reads verbose s items ∧ items ≠ [] ∧ (verbose = false → items = m.items) := by
  cases h with
  | char h =>
      exact ⟨_, reads_of_visible h.charText h.visible, List.cons_ne_nil _ _, fun _ => rfl⟩
  | range hlow hhigh hle =>
      exact ⟨_, reads_range_of_visible hlow.charText hhigh.charText hle hlow.visible,
        List.cons_ne_nil _ _, fun _ => rfl⟩
  | list members => exact members.exists_reads verbose
  | wrapped members =>
      obtain ⟨items, hreads, hne, hitems⟩ := members.exists_reads verbose
      exact ⟨_, hreads.nested hne, List.cons_ne_nil _ _,
        fun hverbose => by rw [hitems hverbose]; rfl⟩

theorem exists_reads_flatten (verbose : Bool) {pieces : List (List Char)} {members : List Member}
    (h : List.Forall₂ MemberPiece pieces members) : ∃ items, Reads verbose pieces.flatten items ∧
      (members ≠ [] → items ≠ []) ∧
      (verbose = false → items = members.flatMap Member.items) := by
  induction h with
  | nil => exact ⟨[], .nil, absurd rfl, fun _ => rfl⟩
  | cons head tail ih =>
      obtain ⟨first, hfirst, hfirstNe, hfirstItems⟩ := head.exists_reads verbose
      obtain ⟨others, hothers, -, hothersItems⟩ := ih
      exact ⟨first ++ others, hfirst.append hothers,
        fun _ => List.append_ne_nil_of_left_ne_nil hfirstNe _, fun hverbose => by
        rw [hfirstItems hverbose, hothersItems hverbose, List.flatMap_cons]⟩

/-! ## Written classes on their own -/

theorem depths_append (first second : List ClassItem) : ClassItem.depths (first ++ second) =
    max (ClassItem.depths first) (ClassItem.depths second) := by
  induction first with
  | nil => simp [ClassItem.depths]
  | cons item first ih => simp [ClassItem.depths, ih, Nat.max_assoc]

theorem Member.depths_items_le (m : Member) : ClassItem.depths m.items ≤ 2 := by
  cases m with
  | char c => exact (by decide : max 0 0 ≤ 2)
  | range low high => exact (by decide : max 0 0 ≤ 2)
  | set members negated => cases members <;> cases negated <;> decide

theorem depths_flatMap_le (members : List Member) :
    ClassItem.depths (members.flatMap Member.items) ≤ 2 := by
  induction members with
  | nil => exact Nat.zero_le 2
  | cons m members ih =>
      rw [List.flatMap_cons, depths_append]
      exact Nat.max_le.mpr ⟨m.depths_items_le, ih⟩

/-- A class that is the whole pattern is accepted, unless it is nested too deeply. -/
theorem ofText?_of_reads {body : List Char} {items : List ClassItem} (h : Reads false body items)
    (hne : items ≠ []) (negated : Bool) (hdepth : ClassItem.depths items + 2 ≤ Pattern.depthLimit) :
    Term.ofText? ('[' :: (caretText negated ++ body ++ [']'])) = some (.bracket negated items) := by
  have hstep (r : Reading) (after : List Char) (hverbose : r.verbose = false) :
      r.step '[' (caretText negated ++ body ++ [']'] ++ after) =
        some (r.push (.bracket negated items) after) :=
    h.step hne negated r hverbose after
  have hparts : PartsText ('[' :: (caretText negated ++ body ++ [']'] ++ []))
      [.bracket negated items] :=
    .cons hstep .nil
  have hterm : (Term.bracket negated items).depth ≤ Pattern.depthLimit := by
    rw [Term.depth]
    split <;> omega
  rw [List.append_nil] at hparts
  rw [hparts.ofText?_eq]
  exact if_pos hterm

theorem text_bracket (negated : Bool) {members : List Member} (hne : members ≠ []) :
    (Token.bracket negated members).text =
      '[' :: (caretText negated ++ (members.map Member.text).flatten ++ [']']) := by
  cases members with
  | nil => exact absurd rfl hne
  | cons m members => rfl

/-- A class with members is written as pieces, one for each member, between its brackets. Of all
operators only those of ranges and lists are left there without a backslash, and no operator on
sets. The engine takes the class up to its last bracket wherever it meets it, and alone it is a
pattern with a meaning. -/
theorem class_written_in_pieces {flags : Flags} {pattern : List Char} {front back : List Token}
    {negated : Bool} {members : List Member}
    (h : Splits (Longest (TokenText flags)) pattern (front ++ .bracket negated members :: back) [])
    (hne : members ≠ []) :
    ∃ pieces text, List.Forall₂ MemberPiece pieces members ∧
      text = caretText negated ++ pieces.flatten ++ [']'] ∧
      enginePattern? flags pattern =
        some (front.flatMap Token.text ++ '[' :: text ++ back.flatMap Token.text) ∧
      signs pieces.flatten = members.flatMap Member.signs ∧
      (∀ c ∈ ['&', '-', '~'], ¬ [some c, some c] <:+: bareChars pieces.flatten) ∧
      (∀ r : Reading, ∃ items, (r.verbose = false → items = members.flatMap Member.items) ∧
        ∀ after, r.step '[' (text ++ after) = some (r.push (.bracket negated items) after)) ∧
      Term.ofText? ('[' :: text) = some (.bracket negated (members.flatMap Member.items)) ∧
      ∀ mode : Pattern.Mode, mode.unicode = true → ∃ e,
        (Term.bracket negated (members.flatMap Member.items)).resolve mode = some (e, mode) := by
  obtain ⟨spelled, after, htoken, -⟩ :=
    h.exists_of_mem (List.mem_append_right front (List.mem_cons_self ..))
  have hordered := htoken.ordered
  have hpieces : List.Forall₂ MemberPiece (members.map Member.text) members := by
    rw [List.forall₂_map_left_iff, List.forall₂_same]
    exact fun m hm => memberPiece_text (hordered m hm)
  have htame := tame_flatten hpieces
  have hsigns : members.flatMap Member.signs ⊆ ['[', ']', '^', '-'] := by
    intro c hc
    obtain ⟨m, -, hm⟩ := List.mem_flatMap.mp hc
    exact m.signs_subset hm
  refine ⟨members.map Member.text, _, hpieces, rfl, ?_, ?_, fun c hc => htame.not_doubled hsigns hc,
    fun r => ?_, ?_, fun mode hunicode => ?_⟩
  · rw [enginePattern?, scanTokens_eq_some_iff.mpr h, Option.map_some, List.flatMap_append,
      List.flatMap_cons, text_bracket negated hne]
    exact congrArg some (List.append_assoc ..).symm
  · obtain ⟨bare, hbare, hfound, -⟩ := htame
    rw [signs, ← hfound, ← List.append_nil (List.flatten _), hbare, bareChars, List.append_nil]
  · obtain ⟨items, hreads, hitemsNe, hitems⟩ := exists_reads_flatten r.verbose hpieces
    exact ⟨items, hitems, hreads.step (hitemsNe hne) negated r rfl⟩
  · have hreads := (itemsText_flatMap hordered).reads
    refine ofText?_of_reads hreads (flatMap_items_ne_nil hne) negated ?_
    have hdepth := depths_flatMap_le members
    rw [Pattern.depthLimit]
    omega
  · obtain ⟨set, hset, -⟩ :=
      Pattern.Mode.bracket_contains hunicode negated (members.flatMap Member.items)
    exact ⟨.chars set, by rw [Term.resolve, hset, Option.map_some]⟩

/-- A class of a bracket, an ampersand and a range has one dash for its only sign. -/
theorem class_written_in_pieces_of_marks :
    ∃ body, enginePattern? {} ['[', '[', '&', 'a', '-', 'c', ']'] = some ('[' :: (body ++ [']'])) ∧
      signs body = ['-'] ∧
      Term.ofText? ('[' :: (body ++ [']'])) =
        some (.bracket false [.range '[' '[', .range '&' '&', .range 'a' 'c']) := by
  have hsplit : Splits (Longest (TokenText {})) ['[', '[', '&', 'a', '-', 'c', ']']
      ([] ++ [.bracket false [.char '[', .char '&', .range 'a' 'c']]) [] :=
    scanTokens_eq_some_iff.mp (by decide +kernel)
  obtain ⟨pieces, _, -, rfl, htext, hsigns, -, -, hterm, -⟩ :=
    class_written_in_pieces hsplit (by decide)
  refine ⟨pieces.flatten, ?_, hsigns, hterm⟩
  simpa [caretText] using htext

end ParseView.Regexp
