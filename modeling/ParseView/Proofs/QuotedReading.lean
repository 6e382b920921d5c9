import ParseView.Proofs.EscapeText
import ParseView.Text.Quoted

/-!
# Quoted text is read back

`readLiteral?` reads a string literal behind its opening quote: it takes characters as
they stand, undoes escapes, and stops at the first quote that none of them holds. What
is written between quotes ends for it where the writer ended it, whatever text stands
behind, since every quote and every backslash of the text itself is written behind a
backslash.
-/

namespace ParseView.Text

open Regexp (digitRun_iff scanBraced_append)

/-! ## Reading a literal -/

/-- The characters with a name of their own behind a backslash. -/
def escapes : List (Char × Char) :=
  [('0', '\x00'), ('t', '\t'), ('r', '\r'), ('n', '\n'), ('"', '"'), ('\x27', '\x27'),
    ('\\', '\\')]

/-- What stands behind a backslash: a code in braces or a name. -/
def readEscaped? : List Char → Option (Char × List Char)
  | 'u' :: '{' :: rest => Regexp.scanBraced rest
  | name :: rest => (escapes.lookup name).map (·, rest)
  | [] => none

/-- One character of a literal. -/
def readChar? : List Char → Option (Char × List Char)
  | '\\' :: rest => readEscaped? rest
  | c :: rest => some (c, rest)
  | [] => none

theorem length_of_readEscaped? {s rest : List Char} {c : Char}
    (h : readEscaped? s = some (c, rest)) : rest.length < s.length := by
  unfold readEscaped? at h
  split at h
  · have := Regexp.length_of_scanBraced h
    simp only [List.length_cons]
    omega
  · obtain ⟨_, _, heq⟩ := Option.map_eq_some_iff.mp h
    cases heq
    simp
  · exact nomatch h

theorem length_of_readChar? {s rest : List Char} {c : Char} (h : readChar? s = some (c, rest)) :
    rest.length < s.length := by
  unfold readChar? at h
  split at h
  · have := length_of_readEscaped? h
    simp only [List.length_cons]
    omega
  · cases h
    simp
  · exact nomatch h

/-- The text of a literal up to its closing quote, and what stands behind it. -/
def readLiteral? (s : List Char) : Option (List Char × List Char) :=
  if s.head? = some '"' then some ([], s.tail)
  else
    match _h : readChar? s with
    | none => none
    | some (c, rest) => (readLiteral? rest).map fun (more, rest) => (c :: more, rest)
termination_by s.length
decreasing_by exact length_of_readChar? _h

/-- A literal with its opening quote. -/
def readQuoted? : List Char → Option (String × List Char)
  | '"' :: rest => (readLiteral? rest).map fun (s, rest) => (String.ofList s, rest)
  | _ => none

theorem length_of_readLiteral? {s text rest : List Char}
    (h : readLiteral? s = some (text, rest)) : rest.length ≤ s.length := by
  fun_induction readLiteral? s generalizing text with
  | case1 s _ =>
      cases h
      simp
  | case2 => exact nomatch h
  | case3 s _ c after hread ih =>
      obtain ⟨⟨more, _⟩, hmore, heq⟩ := Option.map_eq_some_iff.mp h
      cases heq
      have := ih hmore
      have := length_of_readChar? hread
      omega

theorem length_of_readQuoted? {s rest : List Char} {text : String}
    (h : readQuoted? s = some (text, rest)) : rest.length < s.length := by
  unfold readQuoted? at h
  split at h
  · obtain ⟨⟨_, _⟩, hread, heq⟩ := Option.map_eq_some_iff.mp h
    cases heq
    have := length_of_readLiteral? hread
    simp only [List.length_cons]
    omega
  · exact nomatch h

/-! ## What is written is read -/

/-- A character is written so that it is no closing quote and is read as itself. -/
theorem readChar?_quotedChar (c : Char) (rest : List Char) :
    (quotedChar c ++ rest).head? ≠ some '"' ∧
      readChar? (quotedChar c ++ rest) = some (c, rest) := by
  unfold quotedChar
  -- the six characters with a name, one that shows by itself, and one written by its code
  iterate 6
    split
    · next h =>
        subst h
        exact ⟨by simp, rfl⟩
  · next hquote hslash =>
      split
      · refine ⟨by simpa using hquote, ?_⟩
        rw [List.singleton_append, readChar?]
        exact hslash
      · have hread := scanBraced_append Nat.toDigits_ne_nil
          (digitRun_toDigits (by decide) c.toNat) rest
        refine ⟨by simp, ?_⟩
        simpa [readChar?, readEscaped?] using hread

theorem readLiteral?_flatMap_quotedChar (s rest : List Char) :
    readLiteral? (s.flatMap quotedChar ++ '"' :: rest) = some (s, rest) := by
  induction s with
  | nil => simp [readLiteral?]
  | cons c s ih =>
      obtain ⟨hquote, hread⟩ := readChar?_quotedChar c (s.flatMap quotedChar ++ '"' :: rest)
      rw [List.flatMap_cons, List.append_assoc, readLiteral?, if_neg hquote]
      split
      · next hnone => simp [hread] at hnone
      · next hsome =>
          obtain ⟨rfl, rfl⟩ := Prod.mk.inj (Option.some.inj (hread.symm.trans hsome))
          rw [ih]
          rfl

theorem readQuoted?_quoted (s : String) (rest : List Char) :
    readQuoted? ((quoted s).toList ++ rest) = some (s, rest) := by
  have htext : (quoted s).toList ++ rest =
      '"' :: (s.toList.flatMap quotedChar ++ '"' :: rest) := by
    simp [quoted]
  rw [htext, readQuoted?, readLiteral?_flatMap_quotedChar]
  simp

theorem newline_notMem_quotedChar (c : Char) : '\n' ∉ quotedChar c := by
  have hdigits : '\n' ∉ Nat.toDigits 16 c.toNat := by
    intro h
    have hall := (digitRun_iff.mp (digitRun_toDigits (by decide : 1 < 16) c.toNat)).1
    exact absurd (List.all_eq_true.mp hall '\n' h) (by decide)
  unfold quotedChar
  grind

theorem newline_notMem_quoted (s : String) : '\n' ∉ (quoted s).toList := by
  have hnone : ∀ c ∈ s.toList, '\n' ∉ quotedChar c := fun c _ => newline_notMem_quotedChar c
  simpa [quoted] using hnone

end ParseView.Text
