import ParseView.Json.Fault

/-!
# Strings of a document

A string is first cut into pieces, each a character or a sixteen-bit unit written as an escape, up
to its closing quote. Units are then put together: a leading surrogate needs its partner right
behind it. Who passes over a string needs the first half only.
-/

namespace ParseView.Json

/-- A piece of a string: a character, or an escaped unit with the text behind it. -/
inductive Piece where
  | char (c : Char)
  | unit (code : Nat) (unread : List Char)
deriving DecidableEq, Repr

def hexValue? (c : Char) : Option Nat :=
  if '0' ≤ c ∧ c ≤ '9' then some (c.toNat - '0'.toNat)
  else if 'a' ≤ c ∧ c ≤ 'f' then some (c.toNat - 'a'.toNat + 10)
  else if 'A' ≤ c ∧ c ≤ 'F' then some (c.toNat - 'A'.toNat + 10)
  else none

def hexUnit? (a b c d : Char) : Option Nat := do
  let a ← hexValue? a
  let b ← hexValue? b
  let c ← hexValue? c
  let d ← hexValue? d
  return ((a * 16 + b) * 16 + c) * 16 + d

/-- The character meant by a backslash and one more character. -/
def shortEscape? : Char → Option Char
  | '"' => some '"'
  | '\\' => some '\\'
  | '/' => some '/'
  | 'b' => some '\x08'
  | 'f' => some '\x0c'
  | 'n' => some '\n'
  | 'r' => some '\r'
  | 't' => some '\t'
  | _ => none

/-- What stands where four hexadecimal digits should be is judged by its first four bytes. -/
def hexFault (unread : List Char) : Fault :=
  if Text.utf8Length unread < 4 then .ending .endOfString else ⟨.invalidEscape, unread, 4⟩

/-- The pieces of a string and the text behind its closing quote, or the fault that ends it. -/
structure StringText where
  pieces : List Piece
  ending : Except Fault (List Char)

def StringText.cons (piece : Piece) (s : StringText) : StringText :=
  { s with pieces := piece :: s.pieces }

/-- Cuts a string, given without its opening quote. -/
def scanString : List Char → StringText
  | [] => ⟨[], .error (.ending .endOfString)⟩
  | '"' :: rest => ⟨[], .ok rest⟩
  | ['\\'] => ⟨[], .error (.ending .endOfString)⟩
  | '\\' :: 'u' :: a :: b :: c :: d :: rest =>
    match hexUnit? a b c d with
    | some code => (scanString rest).cons (.unit code rest)
    | none => ⟨[], .error (hexFault (a :: b :: c :: d :: rest))⟩
  | '\\' :: 'u' :: rest => ⟨[], .error (hexFault rest)⟩
  | '\\' :: c :: rest =>
    match shortEscape? c with
    | some meant => (scanString rest).cons (.char meant)
    | none => ⟨[], .error (.seen .invalidEscape (c :: rest))⟩
  | c :: rest =>
    if c < ' ' then ⟨[], .error (.seen .controlCharacter (c :: rest))⟩
    else (scanString rest).cons (.char c)

theorem length_of_scanString {s rest : List Char} (h : (scanString s).ending = .ok rest) :
    rest.length < s.length := by
  fun_induction scanString s with
  | case1 => simp at h
  | case2 => simp_all
  | case3 => simp at h
  | case4 _ _ _ _ _ _ _ ih => have := ih h; simp; omega
  | case5 => simp at h
  | case6 => simp at h
  | case7 _ _ _ _ _ _ ih => have := ih h; simp; omega
  | case8 => simp at h
  | case9 => simp at h
  | case10 _ _ _ _ _ _ _ _ ih => have := ih h; simp; omega

def isLeadingSurrogate (code : Nat) : Bool := 0xD800 ≤ code && code ≤ 0xDBFF

def isTrailingSurrogate (code : Nat) : Bool := 0xDC00 ≤ code && code ≤ 0xDFFF

def joinSurrogates (leading trailing : Nat) : Char :=
  Char.ofNat (0x10000 + (leading - 0xD800) * 0x400 + (trailing - 0xDC00))

/-- The fault of a leading surrogate whose partner does not follow. An escape that breaks off is
the fault of that escape. -/
def unpaired (broken : Option Fault) : List Char → Fault
  | [] | ['\\'] => .ending .endOfString
  | '\\' :: 'u' :: rest => broken.getD (hexFault rest)
  | '\\' :: rest => .seen .unfinishedSurrogatePair rest
  | rest => .seen .unfinishedSurrogatePair rest

/-- The text that pieces stand for, unless they are cut off by the fault `broken`. -/
def assemble (broken : Option Fault) : List Piece → Except Fault (List Char)
  | [] => broken.elim (.ok []) .error
  | .char c :: rest => (assemble broken rest).map (c :: ·)
  | .unit code unread :: rest =>
    if isTrailingSurrogate code then .error (.behind .loneSurrogate unread)
    else if isLeadingSurrogate code then
      match rest with
      | .unit partner unread' :: rest =>
        if isTrailingSurrogate partner then
          (assemble broken rest).map (joinSurrogates code partner :: ·)
        else .error (.behind .loneSurrogate unread')
      | _ => .error (unpaired broken unread)
    else (assemble broken rest).map (Char.ofNat code :: ·)

/-- The text of a string that was closed. -/
def closedText (pieces : List Piece) : Except Fault String :=
  (assemble none pieces).map String.ofList

/-- Where a string that was never closed breaks off. -/
def brokenText (pieces : List Piece) (fault : Fault) : Stop :=
  match assemble (some fault) pieces with
  | .error first => ⟨first, fault.cause⟩
  | .ok _ => .same fault

/-- A character as it is written inside quotes. -/
def escapeChar (c : Char) : List Char :=
  if c = '"' then ['\\', '"']
  else if c = '\\' then ['\\', '\\']
  else if c = '\x08' then ['\\', 'b']
  else if c = '\x0c' then ['\\', 'f']
  else if c = '\n' then ['\\', 'n']
  else if c = '\r' then ['\\', 'r']
  else if c = '\t' then ['\\', 't']
  else if c < ' ' then
    ['\\', 'u', '0', '0', Nat.digitChar (c.toNat / 16), Nat.digitChar (c.toNat % 16)]
  else [c]

/-- Writes a string with its quotes in front of `rest`. -/
def writeString (s : List Char) (rest : List Char) : List Char :=
  '"' :: s.foldr (fun c tail => escapeChar c ++ tail) ('"' :: rest)

end ParseView.Json
