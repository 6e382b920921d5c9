import ParseView.Json.Reader
import ParseView.Json.Writer

/-!
# Strings and numbers are read back

What the writer makes of a string or of a number is taken apart again by the scanners
of the reader, whatever text follows it. A string ends at its quote. A number ends
where no digit, point or exponent follows, which is what `EndsNumber` asks of the text
behind it; in a document a comma or a bracket stands there.

That a double is the nearest one to its shortest digits is nothing the reader promises,
so what is said of doubles is said of those that are read back, `Binary64.ReadsBack`.
Whole numbers always are.
-/

namespace ParseView.Json

/-! ## Strings -/

theorem hexUnit?_control : ∀ code < 32,
    hexUnit? '0' '0' (Nat.digitChar (code / 16)) (Nat.digitChar (code % 16)) = some code := by
  decide

theorem scanString_cons {c : Char} (hquote : c ≠ '"') (hslash : c ≠ '\\')
    (hcontrol : ¬ c < ' ') (tail : List Char) :
    scanString (c :: tail) = (scanString tail).cons (.char c) := by
  rw [scanString, if_neg hcontrol]
  all_goals simp [hquote, hslash]

/-- An escaped character is one piece, which stands for the character. -/
theorem scanString_escapeChar (c : Char) (tail : List Char) :
    ∃ piece, scanString (escapeChar c ++ tail) = (scanString tail).cons piece ∧
      ∀ pieces, assemble none (piece :: pieces) = (assemble none pieces).map (c :: ·) := by
  have hchar : ∀ pieces, assemble none (.char c :: pieces) =
      (assemble none pieces).map (c :: ·) := fun pieces => by rw [assemble]
  rw [escapeChar]
  split
  · next h => subst h; exact ⟨.char '"', by simp [scanString, shortEscape?], hchar⟩
  split
  · next h => subst h; exact ⟨.char '\\', by simp [scanString, shortEscape?], hchar⟩
  split
  · next h => subst h; exact ⟨.char '\x08', by simp [scanString, shortEscape?], hchar⟩
  split
  · next h => subst h; exact ⟨.char '\x0c', by simp [scanString, shortEscape?], hchar⟩
  split
  · next h => subst h; exact ⟨.char '\n', by simp [scanString, shortEscape?], hchar⟩
  split
  · next h => subst h; exact ⟨.char '\r', by simp [scanString, shortEscape?], hchar⟩
  split
  · next h => subst h; exact ⟨.char '\t', by simp [scanString, shortEscape?], hchar⟩
  split
  · next h =>
      -- A control character is written as the unit of its code, which is no surrogate.
      have hlt : c.toNat < 32 := h
      refine ⟨.unit c.toNat tail, ?_, fun pieces => ?_⟩
      · simp [scanString, hexUnit?_control c.toNat hlt]
      · have hleading : isLeadingSurrogate c.toNat = false := by
          simp [isLeadingSurrogate]
          omega
        have htrailing : isTrailingSurrogate c.toNat = false := by
          simp [isTrailingSurrogate]
          omega
        rw [assemble.eq_def]
        simp [hleading, htrailing]
  · next hquote hslash _ _ _ _ _ hcontrol =>
      exact ⟨.char c, scanString_cons hquote hslash hcontrol tail, hchar⟩

/-- A written string is read up to its closing quote, and stands for what was written. -/
theorem scanString_escaped (s rest : List Char) :
    (scanString (s.foldr (fun c tail => escapeChar c ++ tail) ('"' :: rest))).ending =
        .ok rest ∧
      assemble none (scanString
        (s.foldr (fun c tail => escapeChar c ++ tail) ('"' :: rest))).pieces = .ok s := by
  induction s with
  | nil => simp [scanString, assemble]
  | cons c s ih =>
      obtain ⟨piece, hscan, hmeant⟩ := scanString_escapeChar c
        (s.foldr (fun c tail => escapeChar c ++ tail) ('"' :: rest))
      rw [List.foldr_cons, hscan]
      exact ⟨ih.1, by rw [StringText.cons, hmeant, ih.2]; rfl⟩

/-! ## The end of a number -/

/-- A character with which a number could go on. -/
def continuesNumber (c : Char) : Bool := isDigit c || c == '.' || c == 'e' || c == 'E'

/-- Behind a number stands something that is no part of it. -/
def EndsNumber (rest : List Char) : Prop := ∀ c ∈ rest.head?, continuesNumber c = false

section Scan

variable {s rest unread digits : List Char}

theorem EndsNumber.nil : EndsNumber [] := by simp [EndsNumber]

theorem EndsNumber.cons {c : Char} (h : continuesNumber c = false) (rest : List Char) :
    EndsNumber (c :: rest) := by
  simpa [EndsNumber] using h

theorem EndsNumber.head {c : Char} (h : EndsNumber (c :: rest)) :
    isDigit c = false ∧ c ≠ '.' ∧ c ≠ 'e' ∧ c ≠ 'E' := by
  have hc := h c rfl
  simpa [continuesNumber, and_assoc] using hc

theorem takeWhile_isDigit_append (h : EndsNumber rest) :
    (s ++ rest).takeWhile isDigit = s.takeWhile isDigit ∧
      (s ++ rest).dropWhile isDigit = s.dropWhile isDigit ++ rest := by
  induction s with
  | nil =>
      cases rest with
      | nil => exact ⟨rfl, rfl⟩
      | cons c rest => simp [h.head.1]
  | cons c s ih =>
      cases hc : isDigit c with
      | true => simpa [hc] using ih
      | false => simp [hc]

theorem scanDigits_append (hs : scanDigits s = .ok (digits, unread))
    (h : EndsNumber rest) : scanDigits (s ++ rest) = .ok (digits, unread ++ rest) := by
  obtain ⟨htake, hdrop⟩ := takeWhile_isDigit_append (s := s) h
  rw [scanDigits] at hs ⊢
  rw [htake, hdrop]
  cases hd : s.takeWhile isDigit with
  | nil => simp [hd] at hs
  | cons c more =>
      simp only [hd, Except.ok.injEq, Prod.mk.injEq] at hs ⊢
      exact ⟨hs.1, by rw [hs.2]⟩

/-- But for a leading zero, the digits before the point are a run of digits. -/
theorem scanWhole_eq_ok_iff {r : List Char × List Char} (h : s.head? ≠ some '0') :
    scanWhole s = .ok r ↔ scanDigits s = .ok r := by
  rw [scanWhole, scanDigits]
  · cases s.takeWhile isDigit with
    | nil => simp
    | cons c more => rfl
  · rintro tail rfl
    exact h rfl

theorem scanWhole_zero (h : EndsNumber rest) : scanWhole ('0' :: rest) = .ok (['0'], rest) := by
  cases rest with
  | nil => rfl
  | cons c rest => simp [scanWhole, h.head.1]

theorem scanWhole_append (hs : scanWhole s = .ok (digits, unread))
    (h : EndsNumber rest) : scanWhole (s ++ rest) = .ok (digits, unread ++ rest) := by
  cases s with
  | nil => simp [scanWhole] at hs
  | cons c tail =>
      by_cases hzero : c = '0'
      · subst hzero
        rw [List.cons_append]
        cases tail with
        | nil =>
            obtain ⟨rfl, rfl⟩ : ['0'] = digits ∧ [] = unread := by simpa [scanWhole] using hs
            exact scanWhole_zero h
        | cons d tail =>
            cases hd : isDigit d with
            | true => simp [scanWhole, hd] at hs
            | false =>
                obtain ⟨rfl, rfl⟩ : ['0'] = digits ∧ d :: tail = unread := by
                  simpa [scanWhole, hd] using hs
                simp [scanWhole, hd]
      · rw [scanWhole_eq_ok_iff (by simpa using hzero)] at hs
        rw [scanWhole_eq_ok_iff (by simpa using hzero)]
        exact scanDigits_append hs h

theorem scanFraction_append {fraction : Option (List Char)}
    (hs : scanFraction s = .ok (fraction, unread)) (h : EndsNumber rest) :
    scanFraction (s ++ rest) = .ok (fraction, unread ++ rest) := by
  have hnone (t : List Char) (ht : t.head? ≠ some '.') :
      scanFraction t = .ok (none, t) := by
    rw [scanFraction]
    rintro tail rfl
    exact ht rfl
  cases s with
  | nil =>
      obtain ⟨rfl, rfl⟩ : none = fraction ∧ [] = unread := by simpa [scanFraction] using hs
      refine hnone rest fun hdot => ?_
      obtain ⟨tail, rfl⟩ := List.head?_eq_some_iff.mp hdot
      exact h.head.2.1 rfl
  | cons c tail =>
      by_cases hdot : c = '.'
      · subst hdot
        cases hd : scanDigits tail with
        | error stop => simp [scanFraction, hd, bind, Except.bind] at hs
        | ok r =>
            obtain ⟨rfl, rfl⟩ : some r.1 = fraction ∧ r.2 = unread := by
              simpa [scanFraction, hd, bind, Except.bind, pure, Except.pure] using hs
            have happend : scanDigits (tail ++ rest) = .ok (r.1, r.2 ++ rest) :=
              scanDigits_append hd h
            simp [scanFraction, happend, bind, Except.bind, pure, Except.pure]
      · rw [hnone _ (by simpa using hdot)] at hs
        obtain ⟨rfl, rfl⟩ : none = fraction ∧ c :: tail = unread := by simpa using hs
        exact hnone _ (by simpa using hdot)

theorem scanPowerDigits_append {down : Bool} {power : Option (Bool × List Char)}
    (hs : scanPowerDigits down s = .ok (power, unread)) (h : EndsNumber rest) :
    scanPowerDigits down (s ++ rest) = .ok (power, unread ++ rest) := by
  cases hd : scanDigits s with
  | error stop => simp [scanPowerDigits, hd, bind, Except.bind] at hs
  | ok r =>
      obtain ⟨rfl, rfl⟩ : some (down, r.1) = power ∧ r.2 = unread := by
        simpa [scanPowerDigits, hd, bind, Except.bind, pure, Except.pure] using hs
      have happend : scanDigits (s ++ rest) = .ok (r.1, r.2 ++ rest) := scanDigits_append hd h
      simp [scanPowerDigits, happend, bind, Except.bind, pure, Except.pure]

theorem scanPower_of_ne {c : Char} (he : ¬ (c = 'e' ∨ c = 'E')) (tail : List Char) :
    scanPower (c :: tail) = .ok (none, c :: tail) := by
  rw [scanPower.eq_def]
  exact if_neg he

/-- Behind the letter of an exponent stands a sign or the first digit. -/
theorem scanPower_letter {c d : Char} (he : c = 'e' ∨ c = 'E') (tail : List Char) :
    scanPower (c :: d :: tail) =
      if d = '-' then scanPowerDigits true tail
      else if d = '+' then scanPowerDigits false tail
      else scanPowerDigits false (d :: tail) := by
  rw [scanPower.eq_def]
  simp only [if_pos he]
  split
  · next heq => cases heq; rfl
  · next heq => cases heq; rfl
  · next hminus hplus => simp_all

theorem scanPower_append {power : Option (Bool × List Char)}
    (hs : scanPower s = .ok (power, unread)) (h : EndsNumber rest) :
    scanPower (s ++ rest) = .ok (power, unread ++ rest) := by
  cases s with
  | nil =>
      obtain ⟨rfl, rfl⟩ : none = power ∧ [] = unread := by simpa [scanPower] using hs
      cases rest with
      | nil => rfl
      | cons c rest => exact scanPower_of_ne (not_or.mpr h.head.2.2) rest
  | cons c tail =>
      by_cases he : c = 'e' ∨ c = 'E'
      · cases tail with
        | nil =>
            rw [scanPower.eq_def] at hs
            simp [he, scanPowerDigits, scanDigits, bind, Except.bind] at hs
        | cons d tail =>
            rw [scanPower_letter he] at hs
            rw [List.cons_append, List.cons_append, scanPower_letter he]
            split at hs
            · next hd => rw [if_pos hd]; exact scanPowerDigits_append hs h
            split at hs
            · next hm hd => rw [if_neg hm, if_pos hd]; exact scanPowerDigits_append hs h
            · next hm hd => rw [if_neg hm, if_neg hd]; exact scanPowerDigits_append hs h
      · rw [scanPower_of_ne he] at hs
        obtain ⟨rfl, rfl⟩ : none = power ∧ c :: tail = unread := by simpa using hs
        exact scanPower_of_ne he _

theorem scanUnsigned_append {negative : Bool} {number : NumberText}
    (hs : scanUnsigned negative s = .ok number) (h : EndsNumber rest) :
    scanUnsigned negative (s ++ rest) = .ok { number with rest := number.rest ++ rest } := by
  cases hw : scanWhole s with
  | error stop => simp [scanUnsigned, hw, bind, Except.bind] at hs
  | ok w =>
  cases hf : scanFraction w.2 with
  | error stop => simp [scanUnsigned, hw, hf, bind, Except.bind] at hs
  | ok f =>
  cases hp : scanPower f.2 with
  | error stop => simp [scanUnsigned, hw, hf, hp, bind, Except.bind] at hs
  | ok p =>
  have hw' : scanWhole (s ++ rest) = .ok (w.1, w.2 ++ rest) := scanWhole_append hw h
  have hf' : scanFraction (w.2 ++ rest) = .ok (f.1, f.2 ++ rest) := scanFraction_append hf h
  have hp' : scanPower (f.2 ++ rest) = .ok (p.1, p.2 ++ rest) := scanPower_append hp h
  obtain rfl : ⟨negative, w.1, f.1, p.1, p.2⟩ = number := by
    simpa [scanUnsigned, hw, hf, hp, bind, Except.bind, pure, Except.pure] using hs
  simp [scanUnsigned, hw', hf', hp', bind, Except.bind, pure, Except.pure]

theorem scanNumber_append {number : NumberText} (hs : scanNumber s = .ok number)
    (h : EndsNumber rest) :
    scanNumber (s ++ rest) = .ok { number with rest := number.rest ++ rest } := by
  have hunsigned (t : List Char) (ht : t.head? ≠ some '-') :
      scanNumber t = scanUnsigned false t := by
    rw [scanNumber]
    rintro tail rfl
    exact ht rfl
  cases s with
  | nil => simp [scanNumber, scanUnsigned, scanWhole, bind, Except.bind] at hs
  | cons c tail =>
      by_cases hc : c = '-'
      · subst hc
        exact scanUnsigned_append hs h
      · rw [hunsigned _ (by simpa using hc)] at hs
        rw [hunsigned _ (by simpa using hc)]
        exact scanUnsigned_append hs h

end Scan

/-! ## What a number means -/

theorem NumberText.toBinary64_of_rest {number : NumberText} {x : Binary64}
    (h : number.toBinary64 = .ok x) (rest : List Char) :
    { number with rest := rest : NumberText }.toBinary64 = .ok x := by
  have helim {y : Option Binary64} {fault fault' : Fault}
      (hy : y.elim (Except.error fault) Except.ok = Except.ok x) :
      y.elim (Except.error fault') Except.ok = Except.ok x := by
    cases y with
    | none => exact nomatch hy
    | some y => exact hy
  obtain ⟨negative, whole, fraction, power, unread⟩ := number
  cases power with
  | none => exact helim h
  | some power =>
      simp only [toBinary64] at h ⊢
      cases ho : overlongPower 0 0 power.2 with
      | none =>
          simp only [ho] at h ⊢
          exact helim h
      | some seen =>
          simp only [ho] at h ⊢
          split at h
          · exact nomatch h
          · next hc => rw [if_neg hc]; exact h

/-- What a number means does not hang on the text behind it. -/
theorem NumberText.value_of_rest {number : NumberText} {numeral : Numeral}
    (h : number.value = .ok numeral) (rest : List Char) :
    { number with rest := rest : NumberText }.value = .ok numeral := by
  have hdouble (hx : number.toBinary64.map Numeral.double = .ok numeral) :
      { number with rest := rest : NumberText }.toBinary64.map Numeral.double =
        .ok numeral := by
    cases hb : number.toBinary64 with
    | error fault => rw [hb] at hx; exact nomatch hx
    | ok x => rw [toBinary64_of_rest hb rest, ← hb]; exact hx
  obtain ⟨negative, whole, fraction, power, unread⟩ := number
  cases fraction with
  | some fraction => exact hdouble h
  | none =>
      cases power with
      | some power => exact hdouble h
      | none =>
          simp only [value] at h ⊢
          split
          · next hneg =>
              rw [if_pos hneg] at h
              split
              · next hb => rw [dif_pos hb] at h; exact h
              · next hb => rw [dif_neg hb] at h; exact hdouble h
          · next hneg =>
              rw [if_neg hneg] at h
              split
              · next hb => rw [dif_pos hb] at h; exact h
              · next hb => rw [dif_neg hb] at h; exact hdouble h

/-- A numeral whose text is scanned as a number of this meaning, and as nothing more. -/
def Numeral.Scans (numeral : Numeral) : Prop :=
  ∃ number, scanNumber numeral.text = .ok number ∧ number.rest = [] ∧
    number.value = .ok numeral

theorem Numeral.Scans.append {numeral : Numeral} (h : numeral.Scans) {rest : List Char}
    (hr : EndsNumber rest) :
    ∃ number, scanNumber (numeral.text ++ rest) = .ok number ∧ number.rest = rest ∧
      number.value = .ok numeral := by
  obtain ⟨number, hscan, hrest, hvalue⟩ := h
  refine ⟨_, scanNumber_append hscan hr, ?_, NumberText.value_of_rest hvalue _⟩
  rw [hrest, List.nil_append]

/-! ## Whole numbers -/

theorem isDigit_of_mem_toDigits {n : Nat} {c : Char} (h : c ∈ Nat.toDigits 10 n) :
    isDigit c = true := by
  have hc : c.isDigit = true := Nat.isDigit_of_mem_toDigits (by decide) (by decide) h
  simpa [isDigit, Char.isDigit, Char.le_def] using hc

theorem decimalValue_toDigits (n : Nat) : decimalValue (Nat.toDigits 10 n) = n := by
  have h : Nat.ofDigitChars 10 (Nat.toDigits 10 n) 0 = n := Nat.ofDigitChars_ten_toDigits
  simpa only [Nat.ofDigitChars, decimalValue, digitValue, Nat.mul_comm] using h

theorem eq_zero_of_digitChar : ∀ n < 10, Nat.digitChar n = '0' → n = 0 := by decide

/-- Only zero is written with a leading zero. -/
theorem eq_zero_of_head_toDigits {n : Nat} (h : (Nat.toDigits 10 n).head? = some '0') :
    n = 0 := by
  induction n using Nat.strongRecOn with
  | ind n ih =>
      rcases Nat.lt_or_ge n 10 with hlt | hle
      · rw [Nat.toDigits_of_lt_base hlt] at h
        exact eq_zero_of_digitChar n hlt (by simpa using h)
      · rw [Nat.toDigits_of_base_le (by decide) hle] at h
        have hne : Nat.toDigits 10 (n / 10) ≠ [] := Nat.toDigits_ne_nil
        have hhead : (Nat.toDigits 10 (n / 10)).head? = some '0' := by
          cases hd : Nat.toDigits 10 (n / 10) with
          | nil => exact absurd hd hne
          | cons c more => simpa [hd] using h
        have := ih (n / 10) (by omega) hhead
        omega

theorem scanWhole_toDigits (n : Nat) :
    scanWhole (Nat.toDigits 10 n) = .ok (Nat.toDigits 10 n, []) := by
  rcases Nat.eq_zero_or_pos n with rfl | hpos
  · rfl
  · have hhead : (Nat.toDigits 10 n).head? ≠ some '0' := fun h =>
      Nat.ne_of_gt hpos (eq_zero_of_head_toDigits h)
    have hall : ∀ c ∈ Nat.toDigits 10 n, isDigit c = true := fun c hc =>
      isDigit_of_mem_toDigits hc
    have htake : (Nat.toDigits 10 n ++ []).takeWhile isDigit = Nat.toDigits 10 n ++ [] :=
      List.takeWhile_append_of_pos hall
    have hdrop : (Nat.toDigits 10 n ++ []).dropWhile isDigit = [] :=
      List.dropWhile_append_of_pos hall
    rw [List.append_nil] at htake hdrop
    rw [scanWhole_eq_ok_iff hhead, scanDigits, htake, hdrop]
    cases hd : Nat.toDigits 10 n with
    | nil => exact absurd hd Nat.toDigits_ne_nil
    | cons c more => rfl

theorem scanUnsigned_toDigits (negative : Bool) (n : Nat) :
    scanUnsigned negative (Nat.toDigits 10 n) =
      .ok ⟨negative, Nat.toDigits 10 n, none, none, []⟩ := by
  simp [scanUnsigned, scanWhole_toDigits, scanFraction, scanPower, bind, Except.bind, pure,
    Except.pure]

theorem Numeral.text_ofNat (m : Nat) (lower : -0x8000000000000000 ≤ Int.ofNat m)
    (upper : Int.ofNat m < 0x10000000000000000) :
    (Numeral.whole ⟨.ofNat m, lower, upper⟩).text = Nat.toDigits 10 m :=
  Nat.toList_repr

theorem Numeral.text_negSucc (m : Nat) (lower : -0x8000000000000000 ≤ Int.negSucc m)
    (upper : Int.negSucc m < 0x10000000000000000) :
    (Numeral.whole ⟨.negSucc m, lower, upper⟩).text = '-' :: Nat.toDigits 10 (m + 1) := by
  show ("-" ++ (m + 1).repr).toList = _
  rw [String.toList_append, Nat.toList_repr]
  rfl

theorem Numeral.scans_whole (n : Whole) : (Numeral.whole n).Scans := by
  obtain ⟨val, lower, upper⟩ := n
  cases val with
  | ofNat m =>
      have hm : m < 0x10000000000000000 := Int.ofNat_lt.mp upper
      refine ⟨⟨false, Nat.toDigits 10 m, none, none, []⟩, ?_, rfl, ?_⟩
      · have hhead : ∀ tail, Nat.toDigits 10 m ≠ '-' :: tail := fun tail h => by
          have : isDigit '-' = true := isDigit_of_mem_toDigits (n := m) (by simp [h])
          exact absurd this (by decide)
        rw [text_ofNat, scanNumber]
        · exact scanUnsigned_toDigits false m
        · exact hhead
      · simp [NumberText.value, decimalValue_toDigits, hm, Numeral.ofNat]
  | negSucc m =>
      have hm : m + 1 ≤ 0x8000000000000000 := by omega
      refine ⟨⟨true, Nat.toDigits 10 (m + 1), none, none, []⟩, ?_, rfl, ?_⟩
      · rw [text_negSucc]
        exact scanUnsigned_toDigits true (m + 1)
      · have hrange : 0 < m + 1 ∧ m + 1 ≤ 0x8000000000000000 := ⟨Nat.succ_pos m, hm⟩
        simp only [NumberText.value, decimalValue_toDigits, if_true, dif_pos hrange]
        rfl

end ParseView.Json

namespace ParseView

/-- The text that is written of a double is scanned as this double, to its end. -/
def Binary64.ReadsBack (x : Binary64) : Prop := (Json.Numeral.double x).Scans

end ParseView
