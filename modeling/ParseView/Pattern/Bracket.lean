import ParseView.Pattern.Term
import ParseView.Text.CharClass

/-!
# Escapes, blanks and classes of a pattern

Classes are read in the form in which they are written for this engine: members are characters,
escapes, ranges and nested classes, and every other sign is escaped. What the engine would read in
another way is refused and never taken for a member: the operators on sets, a class that is meant
by its name, and a bracket that closes a class before its first member.
-/

namespace ParseView.Pattern

/-! ## Escapes -/

def hexCode (digits : List Char) : Nat :=
  digits.foldl (fun value c => value * 16 + (Text.digitValue? 16 c).getD 0) 0

def charOfHex? (digits : List Char) : Option Char :=
  if !digits.isEmpty ∧ digits.all Text.isHexDigit ∧ (hexCode digits).isValidChar then
    some (Char.ofNat (hexCode digits))
  else none

/-- The code of an escaped character, in braces or in two digits. -/
def readHex : List Char → Option (Char × List Char)
  | '{' :: rest =>
    match rest.dropWhile Text.isHexDigit with
    | '}' :: after => (charOfHex? (rest.takeWhile Text.isHexDigit)).map (·, after)
    | _ => none
  | a :: b :: rest => (charOfHex? [a, b]).map (·, rest)
  | _ => none

/-- A character behind a backslash. -/
def readEscape : List Char → Option (Char × List Char)
  | [] => none
  | 't' :: rest => some ('\t', rest)
  | 'n' :: rest => some ('\n', rest)
  | 'v' :: rest => some ('\x0b', rest)
  | 'f' :: rest => some ('\x0c', rest)
  | 'r' :: rest => some ('\r', rest)
  | 'x' :: rest => readHex rest
  | c :: rest =>
    if Text.isAsciiPunctuation c ∧ c ≠ '<' ∧ c ≠ '>' then some (c, rest) else none

theorem length_of_readHex {s rest : List Char} {c : Char} (h : readHex s = some (c, rest)) :
    rest.length < s.length := by
  unfold readHex at h
  split at h
  · next tail =>
    split at h
    · next hd =>
      have := (List.dropWhile_sublist (l := tail) Text.isHexDigit).length_le
      rw [hd] at this
      simp only [Option.map_eq_some_iff, Prod.mk.injEq] at h
      obtain ⟨_, _, _, rfl⟩ := h
      simp at *
      omega
    · simp at h
  · simp only [Option.map_eq_some_iff, Prod.mk.injEq] at h
    obtain ⟨_, _, _, rfl⟩ := h
    simp only [List.length_cons]
    omega
  · simp at h

theorem length_of_readEscape {s rest : List Char} {c : Char} (h : readEscape s = some (c, rest)) :
    rest.length < s.length := by
  unfold readEscape at h
  split at h
  case h_1 => simp at h
  case h_7 => have := length_of_readHex h; simp; omega
  case h_8 => split at h <;> simp_all
  all_goals simp_all

/-! ## Blanks and comments -/

/-- Drops a comment up to its line feed. -/
def dropLine (s : List Char) : List Char := (s.dropWhile (· != '\n')).drop 1

theorem length_dropLine_le (s : List Char) : (dropLine s).length ≤ s.length := by
  have := (List.dropWhile_sublist (l := s) (· != '\n')).length_le
  simp only [dropLine, List.length_drop]
  omega

/-- In a verbose pattern blanks and comments mean nothing. -/
def skipVerbose (verbose : Bool) (s : List Char) : List Char :=
  match s with
  | [] => []
  | c :: rest =>
    if verbose then
      if Text.isWhiteSpace c then skipVerbose verbose rest
      else if c = '#' then skipVerbose verbose (dropLine rest)
      else c :: rest
    else c :: rest
termination_by s.length
decreasing_by
  · simp
  · have := length_dropLine_le rest
    simp
    omega

theorem length_skipVerbose_le (verbose : Bool) (s : List Char) :
    (skipVerbose verbose s).length ≤ s.length := by
  fun_induction skipVerbose verbose s with
  | case1 => simp
  | case2 => simp; omega
  | case3 rest _ _ ih => have := length_dropLine_le rest; simp; omega
  | case4 => simp
  | case5 => simp

/-! ## Classes -/

/-- A character of a class. -/
def readClassChar : List Char → Option (Char × List Char)
  | [] => none
  | '\\' :: rest => readEscape rest
  | c :: rest => if c = '[' ∨ c = ']' then none else some (c, rest)

theorem length_of_readClassChar {s rest : List Char} {c : Char}
    (h : readClassChar s = some (c, rest)) : rest.length < s.length := by
  unfold readClassChar at h
  split at h
  · simp at h
  · have := length_of_readEscape h; simp; omega
  · split at h <;> simp_all

/-- A class that is open: whether it is negated, and its members so far, the last one first. -/
structure OpenClass where
  negated : Bool
  items : List ClassItem

/-- The mark of a negated class. -/
def readCaret : List Char → Bool × List Char
  | '^' :: rest => (true, rest)
  | rest => (false, rest)

theorem length_readCaret_le (s : List Char) : (readCaret s).2.length ≤ s.length := by
  unfold readCaret
  split <;> simp

/-- Signs that are operators on sets where they stand twice. -/
def setOperators : List Char := ['&', '-', '~']

/-- The upper end of a range. A dash before the end of the class is not its sign, and neither is
one of two dashes. -/
def readUpper (s : List Char) : Option (List Char) :=
  match s with
  | '-' :: c :: rest => if c = ']' ∨ c = '-' then none else some (c :: rest)
  | _ => none

theorem length_of_readUpper {s rest : List Char} (h : readUpper s = some rest) :
    rest.length < s.length := by
  unfold readUpper at h
  split at h
  · split at h <;> simp_all
  · simp at h

/-- What is met inside a class: its end, a class inside it, or a range. -/
inductive ClassSign where
  | close
  | nested (negated : Bool)
  | range (low high : Char)

def readRange (s : List Char) : Option (ClassSign × List Char) := do
  let (low, rest) ← readClassChar s
  match readUpper rest with
  | none => some (.range low low, rest)
  | some upper =>
    let (high, rest) ← readClassChar upper
    if high < low then none else some (.range low high, rest)

def readSign (verbose : Bool) (s : List Char) : Option (ClassSign × List Char) :=
  match skipVerbose verbose s with
  | [] => none
  | ']' :: rest => some (.close, rest)
  | '[' :: rest =>
    -- A colon announces a name.
    if rest.head? = some ':' then none
    else some (.nested (readCaret rest).1, (readCaret rest).2)
  | c :: rest =>
    if c ∈ setOperators ∧ rest.head? = some c then none else readRange (c :: rest)

theorem length_of_readRange {s rest : List Char} {sign : ClassSign}
    (h : readRange s = some (sign, rest)) : rest.length < s.length := by
  simp only [readRange, Option.bind_eq_bind, Option.bind_eq_some_iff] at h
  obtain ⟨⟨low, after⟩, hl, h⟩ := h
  have := length_of_readClassChar hl
  simp only at h
  split at h
  · simp at h
    simp [← h.2, this]
  · next hu =>
    have := length_of_readUpper hu
    simp only [Option.bind_eq_some_iff] at h
    obtain ⟨⟨high, after'⟩, hh, h⟩ := h
    have := length_of_readClassChar hh
    simp only at h
    split at h
    · simp at h
    · simp at h
      simp [← h.2]
      omega

theorem length_of_readSign {verbose : Bool} {s rest : List Char} {sign : ClassSign}
    (h : readSign verbose s = some (sign, rest)) : rest.length < s.length := by
  have skipped := length_skipVerbose_le verbose s
  unfold readSign at h
  split at h
  · simp at h
  · next hs =>
    simp [hs] at *
    simp [← h.2]
    omega
  · next tail hs =>
    have := length_readCaret_le tail
    split at h
    · simp at h
    · simp [hs] at *
      simp [← h.2]
      omega
  · next hs =>
    split at h
    · simp at h
    · have := length_of_readRange h
      rw [hs] at skipped
      omega

/-- Reads members up to the end of the outermost class. -/
def readClass (verbose : Bool) (outer : List OpenClass) (current : OpenClass) (s : List Char) :
    Option (OpenClass × List Char) :=
  match _h : readSign verbose s with
  | none => none
  | some (.close, rest) =>
    if current.items.isEmpty then none
    else
      match outer with
      | [] => some (current, rest)
      | parent :: outer =>
        readClass verbose outer
          ⟨parent.negated, .nested current.negated current.items.reverse :: parent.items⟩ rest
  | some (.nested negated, rest) => readClass verbose (current :: outer) ⟨negated, []⟩ rest
  | some (.range low high, rest) =>
    readClass verbose outer ⟨current.negated, .range low high :: current.items⟩ rest
termination_by s.length
decreasing_by all_goals exact length_of_readSign _h

theorem length_of_readClass {verbose : Bool} {outer : List OpenClass} {current result : OpenClass}
    {s rest : List Char} (h : readClass verbose outer current s = some (result, rest)) :
    rest.length < s.length := by
  fun_induction readClass verbose outer current s with
  | case1 => simp at h
  | case2 => simp at h
  | case3 _ _ _ hs =>
    have := length_of_readSign hs
    simp at h
    simp [← h.2, this]
  | case4 _ _ _ hs _ _ _ ih => have := length_of_readSign hs; have := ih (by simpa using h); omega
  | case5 _ _ _ _ _ hs ih => have := length_of_readSign hs; have := ih h; omega
  | case6 _ _ _ _ _ _ hs ih => have := length_of_readSign hs; have := ih h; omega

end ParseView.Pattern
