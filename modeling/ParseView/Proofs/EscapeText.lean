import ParseView.Proofs.NumeralValue
import ParseView.Regexp.Token

/-!
# The texts of escapes

`EscapeText` lists what may stand behind a backslash, and what it stands for. It is a
grammar, with one rule for each kind of escape, and knows nothing of the order in which
the scanner tries them. The scanner takes an escape from a text exactly where the text
begins with one, and takes all of it: no escape is the beginning of another.

A number is the only part of an escape that is read digit by digit, so the rules for it
come first.
-/

namespace ParseView.Regexp

/-! ## Hexadecimal digits -/

/-- A run of hexadecimal digits has the number that is read for it. -/
theorem digitRun_iff {digits : List Char} {n : Nat} :
    Text.DigitRun 16 digits n ↔ digits.all Text.isHexDigit = true ∧ n = hexNumber digits := by
  have hfold (value : Nat) (hall : digits.all Text.isHexDigit = true) :
      Tree.digitsValue? 16 value digits =
        some (digits.foldl (fun value c => value * 16 + (Text.digitValue? 16 c).getD 0) value) := by
    induction digits generalizing value with
    | nil => rfl
    | cons c digits ih =>
        simp only [List.all_cons, Bool.and_eq_true] at hall
        obtain ⟨d, hdigit⟩ := Text.isHexDigit_iff.mp hall.1
        have hd := (Text.digitValue?_eq_some_iff (by decide)).mpr hdigit
        rw [Tree.digitsValue?, hd]
        simpa [hd] using ih (value * 16 + d) hall.2
  constructor
  · intro h
    have hall : digits.all Text.isHexDigit = true := by
      clear hfold
      induction h with
      | nil => rfl
      | cons head tail ih => simp [Text.isHexDigit_iff.mpr ⟨_, head⟩, ih]
    have hvalue : Tree.digitsValue? 16 0 digits = some n :=
      (Tree.digitsValue?_eq_some_iff (by decide)).mpr ⟨n, h, by simp⟩
    rw [hfold 0 hall] at hvalue
    exact ⟨hall, (Option.some.inj hvalue).symm⟩
  · rintro ⟨hall, rfl⟩
    obtain ⟨n, hrun, hn⟩ := (Tree.digitsValue?_eq_some_iff (by decide)).mp (hfold 0 hall)
    rw [Nat.zero_mul, Nat.zero_add] at hn
    rw [hexNumber, hn]
    exact hrun

theorem charOfCode?_eq_some_iff {code : Nat} {c : Char} :
    charOfCode? code = some c ↔ code = c.toNat := by
  rw [charOfCode?]
  constructor
  · intro h
    obtain ⟨hvalid, heq⟩ := Option.ite_none_right_eq_some.mp h
    rw [← Option.some.inj heq]
    rw [Char.ofNat, dif_pos hvalid]
    rfl
  · rintro rfl
    have hvalid : c.toNat.isValidChar := c.valid
    rw [if_pos hvalid, Char.ofNat_toNat]

theorem scanHex_eq_some_iff {count : Nat} {s rest : List Char} {c : Char} :
    scanHex count s = some (c, rest) ↔
      ∃ digits, s = digits ++ rest ∧ digits.length = count ∧ Text.DigitRun 16 digits c.toNat := by
  constructor
  · intro h
    simp only [scanHex] at h
    obtain ⟨⟨hlength, hall⟩, hmap⟩ := Option.ite_none_right_eq_some.mp h
    obtain ⟨d, hd, heq⟩ := Option.map_eq_some_iff.mp hmap
    cases heq
    refine ⟨s.take count, (List.take_append_drop count s).symm, hlength, ?_⟩
    exact digitRun_iff.mpr ⟨hall, (charOfCode?_eq_some_iff.mp hd).symm⟩
  · rintro ⟨digits, rfl, rfl, hrun⟩
    obtain ⟨hall, hcode⟩ := digitRun_iff.mp hrun
    simp [scanHex, hall, charOfCode?_eq_some_iff.mpr hcode.symm]

/-- Digits in braces, whose number is that of a character. -/
theorem scanBraced_append {digits : List Char} {c : Char} (hne : digits ≠ [])
    (h : Text.DigitRun 16 digits c.toNat) (rest : List Char) :
    scanBraced (digits ++ '}' :: rest) = some (c, rest) := by
  obtain ⟨hdigits, hcode⟩ := digitRun_iff.mp h
  obtain ⟨htake, hdrop⟩ := Text.span_isHexDigit_brace (List.all_eq_true.mp hdigits) rest
  cases digits with
  | nil => exact absurd rfl hne
  | cons first more =>
      rw [scanBraced, htake, hdrop]
      simp [charOfCode?_eq_some_iff.mpr hcode.symm]

theorem scanBraced_eq_some_iff {s rest : List Char} {c : Char} :
    scanBraced s = some (c, rest) ↔
      ∃ digits, s = digits ++ '}' :: rest ∧ digits ≠ [] ∧ Text.DigitRun 16 digits c.toNat := by
  constructor
  · intro h
    have hsplit := List.takeWhile_append_dropWhile (p := Text.isHexDigit) (l := s)
    have hall : (s.takeWhile Text.isHexDigit).all Text.isHexDigit = true := List.all_takeWhile
    rw [scanBraced] at h
    split at h
    · cases h
    · next digits after hdrop hne =>
        obtain ⟨d, hd, heq⟩ := Option.map_eq_some_iff.mp h
        cases heq
        rw [hdrop] at hsplit
        refine ⟨s.takeWhile Text.isHexDigit, hsplit.symm, fun hnil => hne hnil, ?_⟩
        exact digitRun_iff.mpr ⟨hall, (charOfCode?_eq_some_iff.mp hd).symm⟩
    · cases h
  · intro h
    obtain ⟨digits, rfl, hne, hrun⟩ := h
    exact scanBraced_append hne hrun rest

/-! ## What may stand behind a backslash -/

/-- The sets with a letter of their own. -/
def shorthands : List (Char × ShortClass × Bool) :=
  [('d', .digit, false), ('D', .digit, true), ('w', .word, false), ('W', .word, true),
    ('s', .space, false), ('S', .space, true)]

/-- The characters that have a letter of their own everywhere. -/
def letterControls : List (Char × Char) :=
  [('t', '\t'), ('n', '\n'), ('v', '\x0b'), ('f', '\x0c'), ('r', '\r')]

/-- The text of an escape without its backslash, in front of some text. -/
inductive EscapeText (unicode : Bool) : List Char → Escape → List Char → Prop where
  | set {letter : Char} {members : ShortClass} {negated : Bool}
      (h : (letter, members, negated) ∈ shorthands) (after : List Char) :
      EscapeText unicode [letter] (.set members negated) after
  | boundary (after : List Char) : EscapeText unicode ['b'] (.boundary false) after
  | noBoundary (after : List Char) : EscapeText unicode ['B'] (.boundary true) after
  | control {letter c : Char} (h : (letter, c) ∈ letterControls) (after : List Char) :
      EscapeText unicode [letter] (.char c) after
  | null {after : List Char} (h : ∀ d ∈ after.head?, Text.isAsciiDigit d = false) :
      EscapeText unicode ['0'] (.char '\x00') after
  | letter {c : Char} (h : Text.isAsciiLetter c = true) (after : List Char) :
      EscapeText unicode ['c', c] (.char (Char.ofNat (c.toNat % 32))) after
  | byte {digits : List Char} {c : Char} (hlength : digits.length = 2)
      (h : Text.DigitRun 16 digits c.toNat) (after : List Char) :
      EscapeText unicode ('x' :: digits) (.char c) after
  | unit {digits : List Char} {c : Char} (hlength : digits.length = 4)
      (h : Text.DigitRun 16 digits c.toNat) (after : List Char) :
      EscapeText unicode ('u' :: digits) (.char c) after
  | braced {digits : List Char} {c : Char} (hunicode : unicode = true) (hne : digits ≠ [])
      (h : Text.DigitRun 16 digits c.toNat) (after : List Char) :
      EscapeText unicode ('u' :: '{' :: (digits ++ ['}'])) (.char c) after
  | identity {c : Char} (h : Text.isAsciiAlphanumeric c = false) (after : List Char) :
      EscapeText unicode [c] (.char c) after

variable {unicode : Bool} {s spelled after : List Char} {e : Escape}

/-! ## Escapes are what is scanned -/

theorem scanEscape_of_identity {c : Char} (h : Text.isAsciiAlphanumeric c = false)
    (after : List Char) : scanEscape unicode (c :: after) = some (.char c, after) := by
  have hletter {d : Char} (hd : Text.isAsciiAlphanumeric d = true) : c ≠ d := by
    rintro rfl
    rw [h] at hd
    exact Bool.false_ne_true hd
  rw [scanEscape]
  · rw [h]
    rfl
  all_goals exact hletter (by decide)

theorem EscapeText.scanEscape (h : EscapeText unicode spelled e after) :
    Regexp.scanEscape unicode (spelled ++ after) = some (e, after) := by
  cases h with
  | set h =>
      simp only [shorthands, List.mem_cons, List.not_mem_nil, or_false, Prod.mk.injEq] at h
      rcases h with h | h | h | h | h | h <;> obtain ⟨rfl, rfl, rfl⟩ := h <;> rfl
  | boundary => rfl
  | noBoundary => rfl
  | control h =>
      simp only [letterControls, List.mem_cons, List.not_mem_nil, or_false, Prod.mk.injEq] at h
      rcases h with h | h | h | h | h <;> obtain ⟨rfl, rfl⟩ := h <;> rfl
  | null h =>
      have hdigit : after.head?.any Text.isAsciiDigit = false := by
        cases hd : after.head? with
        | none => rfl
        | some d => exact h d hd
      show Regexp.scanEscape unicode ('0' :: after) = _
      rw [Regexp.scanEscape, hdigit]
      rfl
  | letter h =>
      show Regexp.scanEscape unicode ('c' :: _ :: after) = _
      rw [Regexp.scanEscape]
      exact if_pos h
  | @byte digits c hlength h =>
      have hscan : scanHex 2 (digits ++ after) = some (c, after) :=
        scanHex_eq_some_iff.mpr ⟨digits, rfl, hlength, h⟩
      show Regexp.scanEscape unicode ('x' :: (digits ++ after)) = _
      rw [Regexp.scanEscape, hscan]
      rfl
  | @unit digits c hlength h =>
      have hscan : scanHex 4 (digits ++ after) = some (c, after) :=
        scanHex_eq_some_iff.mpr ⟨digits, rfl, hlength, h⟩
      have hbrace (rest : List Char) : digits ++ after ≠ '{' :: rest := by
        intro heq
        obtain ⟨first, more, rfl⟩ := List.exists_cons_of_length_pos
          (by rw [hlength]; decide : 0 < digits.length)
        obtain ⟨rfl, -⟩ := List.cons.inj heq
        have hall := (digitRun_iff.mp h).1
        rw [List.all_cons, show Text.isHexDigit '{' = false by decide, Bool.false_and] at hall
        exact Bool.false_ne_true hall
      show Regexp.scanEscape unicode ('u' :: (digits ++ after)) = _
      rw [Regexp.scanEscape]
      · simp only [hscan, Option.map_some]
      · exact fun rest _ heq => hbrace rest heq
  | @braced digits c hunicode hne h =>
      show Regexp.scanEscape unicode ('u' :: '{' :: (digits ++ ['}'] ++ after)) = _
      rw [hunicode, List.append_assoc, List.singleton_append, Regexp.scanEscape]
      simp only
      rw [scanBraced_append hne h]
      rfl
  | identity h => exact scanEscape_of_identity h after

theorem exists_escapeText (h : scanEscape unicode s = some (e, after)) :
    ∃ spelled, EscapeText unicode spelled e after ∧ s = spelled ++ after := by
  have hset {letter : Char} {members : ShortClass} {negated : Bool} {rest : List Char}
      (hmem : (letter, members, negated) ∈ shorthands)
      (h : some (Escape.set members negated, rest) = some (e, after)) :
      ∃ spelled, EscapeText unicode spelled e after ∧ letter :: rest = spelled ++ after := by
    obtain ⟨rfl, rfl⟩ := Prod.mk.inj (Option.some.inj h)
    exact ⟨[letter], .set hmem rest, rfl⟩
  have hcontrol {letter c : Char} {rest : List Char} (hmem : (letter, c) ∈ letterControls)
      (h : some (Escape.char c, rest) = some (e, after)) :
      ∃ spelled, EscapeText unicode spelled e after ∧ letter :: rest = spelled ++ after := by
    obtain ⟨rfl, rfl⟩ := Prod.mk.inj (Option.some.inj h)
    exact ⟨[letter], .control hmem rest, rfl⟩
  have hunit {rest rest' : List Char} {c : Char} (hscan : scanHex 4 rest = some (c, rest'))
      (h : (Escape.char c, rest') = (e, after)) :
      ∃ spelled, EscapeText unicode spelled e after ∧ 'u' :: rest = spelled ++ after := by
    obtain ⟨rfl, rfl⟩ := Prod.mk.inj h
    obtain ⟨digits, rfl, hlength, hrun⟩ := scanHex_eq_some_iff.mp hscan
    exact ⟨'u' :: digits, .unit hlength hrun _, rfl⟩
  rw [Regexp.scanEscape.eq_def] at h
  split at h
  case h_1 => exact nomatch h
  case h_2 => exact hset (by decide) h
  case h_3 => exact hset (by decide) h
  case h_4 => exact hset (by decide) h
  case h_5 => exact hset (by decide) h
  case h_6 => exact hset (by decide) h
  case h_7 => exact hset (by decide) h
  case h_8 rest =>
    obtain ⟨rfl, rfl⟩ := Prod.mk.inj (Option.some.inj h)
    exact ⟨['b'], .boundary rest, rfl⟩
  case h_9 rest =>
    obtain ⟨rfl, rfl⟩ := Prod.mk.inj (Option.some.inj h)
    exact ⟨['B'], .noBoundary rest, rfl⟩
  case h_10 => exact hcontrol (by decide) h
  case h_11 => exact hcontrol (by decide) h
  case h_12 => exact hcontrol (by decide) h
  case h_13 => exact hcontrol (by decide) h
  case h_14 => exact hcontrol (by decide) h
  case h_15 rest =>
    obtain ⟨hdigit, h⟩ := Option.ite_none_left_eq_some.mp h
    obtain ⟨rfl, rfl⟩ := Prod.mk.inj (Option.some.inj h)
    refine ⟨['0'], .null fun d hd => ?_, rfl⟩
    simpa [Option.mem_def.mp hd] using hdigit
  case h_16 =>
    split at h
    · next c rest =>
        obtain ⟨hletter, h⟩ := Option.ite_none_right_eq_some.mp h
        obtain ⟨rfl, rfl⟩ := Prod.mk.inj (Option.some.inj h)
        exact ⟨['c', c], .letter hletter rest, rfl⟩
    · exact nomatch h
  case h_17 rest =>
    obtain ⟨⟨c, after'⟩, hscan, heq⟩ := Option.map_eq_some_iff.mp h
    obtain ⟨rfl, rfl⟩ := Prod.mk.inj heq
    obtain ⟨digits, rfl, hlength, hrun⟩ := scanHex_eq_some_iff.mp hscan
    exact ⟨'x' :: digits, .byte hlength hrun _, rfl⟩
  case h_18 rest =>
    obtain ⟨⟨c, after'⟩, hscan, heq⟩ := Option.map_eq_some_iff.mp h
    split at hscan
    · next rest' =>
        obtain ⟨rfl, rfl⟩ := Prod.mk.inj heq
        obtain ⟨digits, rfl, hne, hrun⟩ := scanBraced_eq_some_iff.mp hscan
        exact ⟨'u' :: '{' :: (digits ++ ['}']), .braced rfl hne hrun _, by simp⟩
    · exact hunit hscan heq
  case h_19 =>
    obtain ⟨halnum, h⟩ := Option.ite_none_left_eq_some.mp h
    obtain ⟨rfl, rfl⟩ := Prod.mk.inj (Option.some.inj h)
    exact ⟨[_], .identity (by simpa using halnum) _, rfl⟩

/-- An escape is taken from a text exactly where the text begins with one. -/
theorem scanEscape_eq_some_iff : scanEscape unicode s = some (e, after) ↔
    ∃ spelled, EscapeText unicode spelled e after ∧ s = spelled ++ after := by
  constructor
  · exact exists_escapeText
  · rintro ⟨spelled, h, rfl⟩
    exact h.scanEscape

/-- The letters and digits that begin an escape. -/
def escapeLetters : List Char :=
  ['d', 'D', 'w', 'W', 's', 'S', 'b', 'B', 't', 'n', 'v', 'f', 'r', '0', 'c', 'x', 'u']

/-- Any other letter or digit begins none, so that references to groups and properties of
characters are no escapes. -/
theorem scanEscape_of_unknown {c : Char} (halnum : Text.isAsciiAlphanumeric c = true)
    (h : c ∉ escapeLetters) (after : List Char) : scanEscape unicode (c :: after) = none := by
  have hletter {d : Char} (hd : d ∈ escapeLetters) : c ≠ d := fun heq => h (heq ▸ hd)
  rw [scanEscape]
  · exact if_pos halnum
  all_goals exact hletter (by decide)

end ParseView.Regexp
