import ParseView.Pattern.Bracket

/-!
# Reading a pattern

The reader keeps a stack of open groups, so the depth of a pattern costs no stack of its own, and
takes at least one character in each step. It answers with the syntax tree or with nothing: why a
pattern is refused is of no interest to anyone.
-/

namespace ParseView.Pattern

/-! ## Groups and flags -/

def flagOf? : Char → Option Flag
  | 'i' => some .ignoreCase
  | 'm' => some .multiLine
  | 's' => some .dotAll
  | 'U' => some .swapGreed
  | 'u' => some .unicode
  | 'R' => some .crlf
  | 'x' => some .verbose
  | _ => none

/-- Flags up to the colon or the parenthesis behind them. Each comes once, and so does the dash,
which flags must follow. -/
def readFlags (negated dangling : Bool) (changes : FlagChanges) :
    List Char → Option (FlagChanges × List Char)
  | [] => none
  | c :: rest =>
    if c = ':' ∨ c = ')' then
      if dangling then none else some (changes.reverse, c :: rest)
    else if c = '-' then
      if negated then none else readFlags true true changes rest
    else
      match flagOf? c with
      | none => none
      | some flag =>
        if changes.any (·.1 = flag) then none
        else readFlags negated false ((flag, !negated) :: changes) rest

def isNameStart (c : Char) : Bool := c == '_' || Text.isAlphabetic c

def isNameChar (c : Char) : Bool :=
  c == '_' || c == '.' || c == '[' || c == ']' || Text.isAlphabetic c || Text.isNumeric c

/-- The name of a group, up to the angle bracket behind it. -/
def readName (s : List Char) : Option (List Char × List Char) :=
  match s.takeWhile (· != '>'), s.dropWhile (· != '>') with
  | c :: name, _ :: rest =>
    if isNameStart c ∧ name.all isNameChar then some (c :: name, rest) else none
  | _, _ => none

inductive GroupKind where
  | capture
  | plain (changes : FlagChanges)
deriving Repr

/-- What an opening parenthesis begins. -/
inductive Opening where
  | flags (changes : FlagChanges)
  | group (kind : GroupKind)
  | named (name : List Char)

/-- Looking around is not among the things that can be opened: the sign behind the question mark
is no flag. -/
def readOpening : List Char → Option (Opening × List Char)
  | '?' :: 'P' :: '<' :: rest => (readName rest).map fun (name, rest) => (.named name, rest)
  | '?' :: '<' :: rest => (readName rest).map fun (name, rest) => (.named name, rest)
  | '?' :: rest =>
    match readFlags false false [] rest with
    | some (changes, ')' :: rest) =>
      -- Without any flag this is a repetition of nothing.
      if changes.isEmpty then none else some (.flags changes, rest)
    | some (changes, ':' :: rest) => some (.group (.plain changes), rest)
    | _ => none
  | rest => some (.group .capture, rest)

/-! ## Repetitions -/

/-- The bounds of a repetition, and whether it takes as little as it can. -/
structure Bounds where
  least : Nat
  most : Option Nat
  isLazy : Bool

def decimalNumber (digits : List Char) : Nat :=
  digits.foldl (fun value c => value * 10 + (Text.digitValue? 10 c).getD 0) 0

/-- The digits of a count; in a verbose pattern blanks may stand between them. -/
def takeDigits (verbose : Bool) (s : List Char) : List Char × List Char :=
  match s with
  | [] => ([], [])
  | c :: rest =>
    if Text.isAsciiDigit c then
      let (digits, rest) := takeDigits verbose (skipVerbose verbose rest)
      (c :: digits, rest)
    else ([], c :: rest)
termination_by s.length
decreasing_by
  have := length_skipVerbose_le verbose rest
  simp
  omega

theorem length_takeDigits_le (verbose : Bool) (s : List Char) :
    (takeDigits verbose s).2.length ≤ s.length := by
  fun_induction takeDigits verbose s with
  | case1 => simp
  | case2 c rest _ digits rest' hd ih =>
    have := length_skipVerbose_le verbose rest
    simp [hd] at *
    omega
  | case3 => simp

/-- Blanks around a count mean nothing. -/
def skipSpace (s : List Char) : List Char := s.dropWhile Text.isWhiteSpace

theorem length_skipSpace_le (s : List Char) : (skipSpace s).length ≤ s.length :=
  (List.dropWhile_sublist Text.isWhiteSpace).length_le

/-- A count below `2 ^ 32`, if there are digits. -/
def readCount (verbose : Bool) (s : List Char) : Option (Option Nat × List Char) :=
  let (digits, rest) := takeDigits verbose (skipSpace s)
  let rest := skipVerbose verbose (skipSpace rest)
  if digits.isEmpty then some (none, rest)
  else
    let count := decimalNumber digits
    if count < 0x100000000 then some (some count, rest) else none

/-- The mark of a repetition that takes as little as it can. It matches the same texts. -/
def readLazy : List Char → Bool × List Char
  | '?' :: rest => (true, rest)
  | rest => (false, rest)

/-- The bounds between braces, given without the opening one. -/
def readBounds (verbose : Bool) (s : List Char) : Option (Bounds × List Char) := do
  let (least, rest) ← readCount verbose (skipVerbose verbose s)
  match rest with
  | '}' :: rest =>
    let (isLazy, rest) := readLazy (skipVerbose verbose rest)
    return (⟨← least, least, isLazy⟩, rest)
  | ',' :: rest =>
    let least ← least
    match skipVerbose verbose rest with
    | '}' :: rest =>
      let (isLazy, rest) := readLazy (skipVerbose verbose rest)
      return (⟨least, none, isLazy⟩, rest)
    | rest =>
      match ← readCount verbose rest with
      | (some most, '}' :: rest) =>
        let (isLazy, rest) := readLazy (skipVerbose verbose rest)
        if least ≤ most then some (⟨least, some most, isLazy⟩, rest) else none
      | _ => none
  | _ => none

/-! ## The reader -/

/-- An open group: the terms and branches before it, and whether the pattern was verbose there. -/
structure OpenGroup where
  branches : List Term
  parts : List Term
  kind : GroupKind
  verbose : Bool

/-- A reader at work: the open groups, and of the innermost one the finished branches and the terms
of the branch at hand, the last ones first. -/
structure Reading where
  groups : List OpenGroup
  branches : List Term
  parts : List Term
  verbose : Bool
  names : List (List Char)
  unread : List Char

namespace Reading

/-- The term of everything between the parentheses. -/
def body (r : Reading) : Term := .ofBranches r.branches.reverse (.ofParts r.parts.reverse)

def push (r : Reading) (term : Term) (rest : List Char) : Reading :=
  { r with parts := term :: r.parts, unread := rest }

def openGroup (r : Reading) (kind : GroupKind) (names : List (List Char)) (rest : List Char) :
    Reading :=
  let verbose := match kind with
    | .capture => r.verbose
    | .plain changes => (changes.lookup .verbose).getD r.verbose
  ⟨⟨r.branches, r.parts, kind, r.verbose⟩ :: r.groups, [], [], verbose, names, rest⟩

/-- Repeats the last term. -/
def repeatLast (r : Reading) (bounds : Bounds) (rest : List Char) : Option Reading :=
  match r.parts with
  | [] => none
  | last :: parts =>
    if last.isRepeatable then
      some { r with
        parts := .repetition last bounds.least bounds.most bounds.isLazy :: parts
        unread := rest }
    else none

/-- One step, at the character `c`. -/
def step (r : Reading) (c : Char) (rest : List Char) : Option Reading :=
  match c with
  | '(' =>
    match readOpening (skipVerbose r.verbose rest) with
    | none => none
    | some (.flags changes, rest) =>
      some { r with
        parts := .flags changes :: r.parts
        verbose := (changes.lookup .verbose).getD r.verbose
        unread := rest }
    | some (.group kind, rest) => some (r.openGroup kind r.names rest)
    | some (.named name, rest) =>
      if r.names.contains name then none
      else some (r.openGroup .capture (name :: r.names) rest)
  | ')' =>
    match r.groups with
    | [] => none
    | group :: groups =>
      let term := match group.kind with
        | .capture => Term.capture r.body
        | .plain changes => Term.group changes r.body
      some ⟨groups, group.branches, term :: group.parts, group.verbose, r.names, rest⟩
  | '|' =>
    some { r with branches := .ofParts r.parts.reverse :: r.branches, parts := [], unread := rest }
  | '[' =>
    match readClass r.verbose [] ⟨(readCaret rest).1, []⟩ (readCaret rest).2 with
    | none => none
    | some (read, rest) => some (r.push (.bracket read.negated read.items.reverse) rest)
  | '?' => r.repeatLast ⟨0, some 1, (readLazy rest).1⟩ (readLazy rest).2
  | '*' => r.repeatLast ⟨0, none, (readLazy rest).1⟩ (readLazy rest).2
  | '+' => r.repeatLast ⟨1, none, (readLazy rest).1⟩ (readLazy rest).2
  | '{' =>
    match readBounds r.verbose rest with
    | none => none
    | some (bounds, rest) => r.repeatLast bounds rest
  | '\\' =>
    match rest with
    | 'b' :: rest => some (r.push (.assertion (.wordBoundary false)) rest)
    | 'B' :: rest => some (r.push (.assertion (.wordBoundary true)) rest)
    | rest =>
      match readEscape rest with
      | none => none
      | some (c, rest) => some (r.push (.literal c) rest)
  | '.' => some (r.push .dot rest)
  | '^' => some (r.push (.assertion .lineStart) rest)
  | '$' => some (r.push (.assertion .lineEnd) rest)
  | c => some (r.push (.literal c) rest)

end Reading

theorem length_of_readFlags {negated dangling : Bool} {changes result : FlagChanges}
    {s rest : List Char} (h : readFlags negated dangling changes s = some (result, rest)) :
    rest.length ≤ s.length := by
  fun_induction readFlags negated dangling changes s with
  | case1 => simp at h
  | case2 => simp at h
  | case3 => simp at h; simp [← h.2]
  | case4 => simp at h
  | case5 _ _ _ _ _ _ ih => have := ih h; simp; omega
  | case6 => simp at h
  | case7 => simp at h
  | case8 _ _ _ _ _ _ _ _ _ _ ih => have := ih h; simp; omega

theorem length_of_readName {s rest name : List Char} (h : readName s = some (name, rest)) :
    rest.length ≤ s.length := by
  have := (List.dropWhile_sublist (l := s) (· != '>')).length_le
  unfold readName at h
  split at h
  · next hd =>
    split at h
    · simp at h
      rw [hd] at this
      simp [← h.2] at *
      omega
    · simp at h
  · simp at h

theorem length_of_readOpening {s rest : List Char} {opening : Opening}
    (h : readOpening s = some (opening, rest)) : rest.length ≤ s.length := by
  unfold readOpening at h
  split at h
  · simp only [Option.map_eq_some_iff, Prod.mk.injEq] at h
    obtain ⟨⟨_, _⟩, hn, _, rfl⟩ := h
    have := length_of_readName hn
    simp
    omega
  · simp only [Option.map_eq_some_iff, Prod.mk.injEq] at h
    obtain ⟨⟨_, _⟩, hn, _, rfl⟩ := h
    have := length_of_readName hn
    simp
    omega
  · split at h
    · next hf =>
      have := length_of_readFlags hf
      split at h
      · simp at h
      · simp at *
        simp [← h.2]
        omega
    · next hf =>
      have := length_of_readFlags hf
      simp at *
      simp [← h.2]
      omega
    · simp at h
  · simp_all

theorem length_of_readCount {verbose : Bool} {s rest : List Char} {count : Option Nat}
    (h : readCount verbose s = some (count, rest)) : rest.length ≤ s.length := by
  have h₁ := length_skipSpace_le s
  have h₂ := length_takeDigits_le verbose (skipSpace s)
  have h₃ := length_skipSpace_le (takeDigits verbose (skipSpace s)).2
  have h₄ := length_skipVerbose_le verbose (skipSpace (takeDigits verbose (skipSpace s)).2)
  simp only [readCount] at h
  split at h
  · simp at h
    rw [← h.2]
    omega
  · split at h
    · simp at h
      rw [← h.2]
      omega
    · simp at h

theorem length_readLazy_le (s : List Char) : (readLazy s).2.length ≤ s.length := by
  unfold readLazy
  split <;> simp

theorem length_of_readBounds {verbose : Bool} {s rest : List Char} {bounds : Bounds}
    (h : readBounds verbose s = some (bounds, rest)) : rest.length ≤ s.length := by
  have lazy (t : List Char) : (readLazy (skipVerbose verbose t)).2.length ≤ t.length :=
    Nat.le_trans (length_readLazy_le _) (length_skipVerbose_le _ _)
  have h₁ := length_skipVerbose_le verbose s
  simp only [readBounds, Option.bind_eq_bind, Option.bind_eq_some_iff] at h
  obtain ⟨⟨least, after⟩, hc, h⟩ := h
  have h₂ := length_of_readCount hc
  simp only at h
  split at h
  · next tail =>
    have := lazy tail
    simp [Option.bind_eq_some_iff] at h
    obtain ⟨_, _, _, rfl⟩ := h
    simp at *
    omega
  · next tail =>
    have h₃ := length_skipVerbose_le verbose tail
    simp only [Option.bind_eq_some_iff] at h
    obtain ⟨_, _, h⟩ := h
    split at h
    · next tail' hs =>
      have := lazy tail'
      simp at h
      rw [hs] at h₃
      rw [← h.2]
      simp at *
      omega
    · simp only [Option.bind_eq_some_iff] at h
      obtain ⟨⟨most, after'⟩, hc', h⟩ := h
      have h₄ := length_of_readCount hc'
      split at h
      · next tail' heq =>
        have := lazy tail'
        split at h
        · simp at h heq
          rw [← h.2]
          rw [heq.2] at h₄
          simp at *
          omega
        · simp at h
      · simp at h
  · simp at h

theorem Reading.length_of_repeatLast {r next : Reading} {bounds : Bounds} {rest : List Char}
    (h : r.repeatLast bounds rest = some next) : next.unread = rest := by
  unfold Reading.repeatLast at h
  split at h
  · simp at h
  · split at h
    · simp at h
      simp [← h]
    · simp at h

/-- A step leaves at most the text behind its character. -/
theorem Reading.length_of_step {r next : Reading} {c : Char} {rest : List Char}
    (h : r.step c rest = some next) : next.unread.length ≤ rest.length := by
  have lazy := length_readLazy_le rest
  unfold Reading.step at h
  split at h
  · have := length_skipVerbose_le r.verbose rest
    split at h
    · simp at h
    · next ho =>
      have := length_of_readOpening ho
      simp at h
      simp [← h]
      omega
    · next ho =>
      have := length_of_readOpening ho
      simp [Reading.openGroup] at h
      simp [← h]
      omega
    · next ho =>
      have := length_of_readOpening ho
      simp [Reading.openGroup] at h
      simp [← h.2]
      omega
  · split at h
    · simp at h
    · simp at h
      simp [← h]
  · simp at h
    simp [← h]
  · have := length_readCaret_le rest
    split at h
    · simp at h
    · next hc =>
      have := length_of_readClass hc
      simp [Reading.push] at h
      simp [← h]
      omega
  · simpa [Reading.length_of_repeatLast h] using lazy
  · simpa [Reading.length_of_repeatLast h] using lazy
  · simpa [Reading.length_of_repeatLast h] using lazy
  · split at h
    · simp at h
    · next hb => simpa [Reading.length_of_repeatLast h] using length_of_readBounds hb
  · split at h
    · simp [Reading.push] at h
      simp [← h]
    · simp [Reading.push] at h
      simp [← h]
    · split at h
      · simp at h
      · next he =>
        have := length_of_readEscape he
        simp [Reading.push] at h
        simp [← h]
        omega
  all_goals
    simp [Reading.push] at h
    simp [← h]

/-- Reads to the end of the pattern, where no group may be open. -/
def Reading.run (r : Reading) : Option Term :=
  match _hs : skipVerbose r.verbose r.unread with
  | [] => if r.groups.isEmpty then some r.body else none
  | c :: rest =>
    match _h : r.step c rest with
    | none => none
    | some next => next.run
termination_by r.unread.length
decreasing_by
  have := Reading.length_of_step _h
  have := length_skipVerbose_le r.verbose r.unread
  rw [_hs] at this
  simp at this
  omega

/-- The syntax tree of a pattern, if it is one and not nested too deeply. -/
def Term.ofText? (pattern : List Char) : Option Term := do
  let term ← Reading.run ⟨[], [], [], false, [], pattern⟩
  if term.depth ≤ depthLimit then some term else none

end ParseView.Pattern
