import ParseView.Regexp.Flags
import ParseView.Text.CharClass

/-!
# Tokens of a regular expression literal

The pattern of a literal is read into tokens, from the left and each as long as it can be: escapes,
bracketed classes, and single characters. Escapes without an exact counterpart (references to
groups, properties, unknown letters) are no tokens, and neither is a class with a reversed range;
a pattern that holds one cannot be carried over at all.
-/

namespace ParseView.Regexp

/-- The classes with a letter of their own. -/
inductive ShortClass where
  | digit
  | word
  | space
deriving DecidableEq, Repr

inductive Escape where
  | char (c : Char)
  | set (members : ShortClass) (negated : Bool)
  | boundary (negated : Bool)
deriving DecidableEq, Repr

/-- The character with this code, unless it is a surrogate or past the end. -/
def charOfCode? (code : Nat) : Option Char :=
  if code.isValidChar then some (Char.ofNat code) else none

def hexNumber (digits : List Char) : Nat :=
  digits.foldl (fun value c => value * 16 + (Text.digitValue? 16 c).getD 0) 0

/-- Exactly `count` hexadecimal digits. -/
def scanHex (count : Nat) (s : List Char) : Option (Char × List Char) :=
  let digits := s.take count
  if digits.length = count ∧ digits.all Text.isHexDigit then
    (charOfCode? (hexNumber digits)).map (·, s.drop count)
  else none

/-- Any number of hexadecimal digits and a closing brace. -/
def scanBraced (s : List Char) : Option (Char × List Char) :=
  match s.takeWhile Text.isHexDigit, s.dropWhile Text.isHexDigit with
  | [], _ => none
  | digits, '}' :: rest => (charOfCode? (hexNumber digits)).map (·, rest)
  | _, _ => none

/-- What stands behind a backslash. Under the flag `u` a code may stand in braces. -/
def scanEscape (unicode : Bool) : List Char → Option (Escape × List Char)
  | [] => none
  | 'd' :: rest => some (.set .digit false, rest)
  | 'D' :: rest => some (.set .digit true, rest)
  | 'w' :: rest => some (.set .word false, rest)
  | 'W' :: rest => some (.set .word true, rest)
  | 's' :: rest => some (.set .space false, rest)
  | 'S' :: rest => some (.set .space true, rest)
  | 'b' :: rest => some (.boundary false, rest)
  | 'B' :: rest => some (.boundary true, rest)
  | 't' :: rest => some (.char '\t', rest)
  | 'n' :: rest => some (.char '\n', rest)
  | 'v' :: rest => some (.char '\x0b', rest)
  | 'f' :: rest => some (.char '\x0c', rest)
  | 'r' :: rest => some (.char '\r', rest)
  | '0' :: rest => if rest.head?.any Text.isAsciiDigit then none else some (.char '\x00', rest)
  | 'c' :: rest =>
    match rest with
    | c :: rest =>
      if Text.isAsciiLetter c then some (.char (Char.ofNat (c.toNat % 32)), rest) else none
    | [] => none
  | 'x' :: rest => (scanHex 2 rest).map fun (c, rest) => (.char c, rest)
  | 'u' :: rest =>
    let scanned := match unicode, rest with
      | true, '{' :: rest => scanBraced rest
      | _, _ => scanHex 4 rest
    scanned.map fun (c, rest) => (.char c, rest)
  | c :: rest => if Text.isAsciiAlphanumeric c then none else some (.char c, rest)

/-- A member of a class as it is met: its end, a character or a set. -/
inductive Atom where
  | close
  | char (c : Char)
  | set (members : ShortClass) (negated : Bool)
deriving DecidableEq, Repr

/-- Inside a class the word boundary is a backspace, and its negation means nothing. -/
def scanAtom (unicode : Bool) : List Char → Option (Atom × List Char)
  | [] => none
  | ']' :: rest => some (.close, rest)
  | '\\' :: rest =>
    match scanEscape unicode rest with
    | some (.char c, rest) => some (.char c, rest)
    | some (.set members negated, rest) => some (.set members negated, rest)
    | some (.boundary false, rest) => some (.char '\x08', rest)
    | some (.boundary true, _) | none => none
  | c :: rest => some (.char c, rest)

inductive Member where
  | char (c : Char)
  | range (low high : Char)
  | set (members : ShortClass) (negated : Bool)
deriving DecidableEq, Repr

/-- A dash is an operator unless the class ends behind it. -/
def dashOperator? : List Char → Option (List Char)
  | '-' :: c :: rest => if c = ']' then none else some (c :: rest)
  | _ => none

theorem length_of_scanHex {count : Nat} {s rest : List Char} {c : Char}
    (h : scanHex count s = some (c, rest)) : rest.length ≤ s.length := by
  simp only [scanHex] at h
  split at h
  · simp only [Option.map_eq_some_iff, Prod.mk.injEq] at h
    obtain ⟨_, _, _, rfl⟩ := h
    simp
  · simp at h

theorem length_of_scanBraced {s rest : List Char} {c : Char}
    (h : scanBraced s = some (c, rest)) : rest.length ≤ s.length := by
  simp only [scanBraced] at h
  split at h
  · simp at h
  · next hd _ =>
    have := (List.dropWhile_sublist (l := s) Text.isHexDigit).length_le
    simp only [Option.map_eq_some_iff, Prod.mk.injEq] at h
    obtain ⟨_, _, _, rfl⟩ := h
    rw [hd] at this
    simp at this
    omega
  · simp at h

theorem length_of_scanEscape {unicode : Bool} {s rest : List Char} {e : Escape}
    (h : scanEscape unicode s = some (e, rest)) : rest.length < s.length := by
  unfold scanEscape at h
  split at h
  case h_1 => simp at h
  case h_15 => split at h <;> simp_all
  case h_16 =>
    split at h
    · split at h
      · simp only [Option.some.injEq, Prod.mk.injEq] at h
        rw [← h.2]
        simp only [List.length_cons]
        omega
      · simp at h
    · simp at h
  case h_17 =>
    simp only [Option.map_eq_some_iff, Prod.mk.injEq] at h
    obtain ⟨⟨_, _⟩, hs, _, rfl⟩ := h
    have := length_of_scanHex hs
    simp
    omega
  case h_18 =>
    simp only [Option.map_eq_some_iff, Prod.mk.injEq] at h
    obtain ⟨⟨_, _⟩, hs, _, rfl⟩ := h
    split at hs
    · have := length_of_scanBraced hs
      simp
      omega
    · have := length_of_scanHex hs
      simp
      omega
  case h_19 => split at h <;> simp_all
  all_goals simp_all

theorem length_of_scanAtom {unicode : Bool} {s rest : List Char} {a : Atom}
    (h : scanAtom unicode s = some (a, rest)) : rest.length < s.length := by
  unfold scanAtom at h
  split at h
  · simp at h
  · simp_all
  · split at h
    all_goals first
      | simp at h; done
      | next he =>
        have := length_of_scanEscape he
        simp at h
        simp [← h.2]
        omega
  · simp_all

theorem length_of_dashOperator {s rest : List Char} (h : dashOperator? s = some rest) :
    rest.length < s.length := by
  unfold dashOperator? at h
  split at h
  · split at h <;> simp_all
  · simp at h

/-- The members of a class up to its closing bracket. A set cannot bound a range: then both sides
and the dash are members. -/
def scanMembers (unicode : Bool) (s : List Char) : Option (List Member × List Char) :=
  match _ha : scanAtom unicode s with
  | none => none
  | some (.close, rest) => some ([], rest)
  | some (.set members negated, rest) =>
    (scanMembers unicode rest).map fun (more, rest) => (.set members negated :: more, rest)
  | some (.char low, rest) =>
    match _hd : dashOperator? rest with
    | none => (scanMembers unicode rest).map fun (more, rest) => (.char low :: more, rest)
    | some upper =>
      match _hb : scanAtom unicode upper with
      | some (.char high, rest) =>
        if high < low then none
        else (scanMembers unicode rest).map fun (more, rest) => (.range low high :: more, rest)
      | some (.set members negated, rest) =>
        (scanMembers unicode rest).map fun (more, rest) =>
          (.char low :: .char '-' :: .set members negated :: more, rest)
      | some (.close, _) | none => none
termination_by s.length
decreasing_by
  · exact length_of_scanAtom _ha
  · exact length_of_scanAtom _ha
  · have := length_of_scanAtom _ha
    have := length_of_dashOperator _hd
    have := length_of_scanAtom _hb
    omega
  · have := length_of_scanAtom _ha
    have := length_of_dashOperator _hd
    have := length_of_scanAtom _hb
    omega

theorem length_of_scanMembers {unicode : Bool} {s rest : List Char} {members : List Member}
    (h : scanMembers unicode s = some (members, rest)) : rest.length < s.length := by
  fun_induction scanMembers unicode s generalizing members with
  | case1 => simp at h
  | case2 _ _ ha => simp at h; simp [← h.2, length_of_scanAtom ha]
  | case3 s _ _ rest' ha ih =>
    have := length_of_scanAtom ha
    simp only [Option.map_eq_some_iff, Prod.mk.injEq] at h
    obtain ⟨⟨_, _⟩, hs, _, rfl⟩ := h
    have := ih hs
    simp only at this ⊢
    omega
  | case4 s low rest' ha hd ih =>
    have := length_of_scanAtom ha
    simp only [Option.map_eq_some_iff, Prod.mk.injEq] at h
    obtain ⟨⟨_, _⟩, hs, _, rfl⟩ := h
    have := ih hs
    simp only at this ⊢
    omega
  | case5 => simp at h
  | case6 s low rest' ha upper hd high rest'' hb hle ih =>
    have := length_of_scanAtom ha
    have := length_of_dashOperator hd
    have := length_of_scanAtom hb
    simp only [Option.map_eq_some_iff, Prod.mk.injEq] at h
    obtain ⟨⟨_, _⟩, hs, _, rfl⟩ := h
    have := ih hs
    simp only at this ⊢
    omega
  | case7 s low rest' ha upper hd _ _ rest'' hb ih =>
    have := length_of_scanAtom ha
    have := length_of_dashOperator hd
    have := length_of_scanAtom hb
    simp only [Option.map_eq_some_iff, Prod.mk.injEq] at h
    obtain ⟨⟨_, _⟩, hs, _, rfl⟩ := h
    have := ih hs
    simp only at this ⊢
    omega
  | case8 => simp at h
  | case9 => simp at h

inductive Token where
  /-- A character that stands for itself or is an operator. -/
  | plain (c : Char)
  | escape (e : Escape)
  /-- Any character but a line terminator. -/
  | dot
  /-- A class; without members it holds nothing, and negated everything. -/
  | bracket (negated : Bool) (members : List Member)
deriving DecidableEq, Repr

def Token.consTo (token : Token) (more : Option (List Token)) : Option (List Token) :=
  more.map (token :: ·)

/-- The mark of a negated class. -/
def dropCaret : List Char → Bool × List Char
  | '^' :: rest => (true, rest)
  | rest => (false, rest)

theorem length_of_dropCaret (s : List Char) : (dropCaret s).2.length ≤ s.length := by
  unfold dropCaret
  split <;> simp

/-- The tokens of a pattern. With the flag `s` a dot is the operator for any character. -/
def scanTokens (flags : Flags) : List Char → Option (List Token)
  | [] => some []
  | '\\' :: rest =>
    match _he : scanEscape flags.unicode rest with
    | some (e, rest) => (Token.escape e).consTo (scanTokens flags rest)
    | none => none
  | '[' :: rest =>
    match _hm : scanMembers flags.unicode (dropCaret rest).2 with
    | some (members, rest') =>
      (Token.bracket (dropCaret rest).1 members).consTo (scanTokens flags rest')
    | none => none
  | '.' :: rest => (if flags.dotAll then Token.plain '.' else .dot).consTo (scanTokens flags rest)
  | c :: rest => (Token.plain c).consTo (scanTokens flags rest)
termination_by s => s.length
decreasing_by
  · have := length_of_scanEscape _he
    simp
    omega
  · have := length_of_scanMembers _hm
    have := length_of_dropCaret rest
    simp
    omega
  · simp
  · simp

end ParseView.Regexp
