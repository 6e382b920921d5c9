import ParseView.Text.CharClass

/-!
# Texts and keys of a settings file

Scanners take what they know from the start of a text and hand it back with the text behind it.
-/

namespace ParseView.Toml

def isBlank (c : Char) : Bool := c == ' ' || c == '\t'

def skipBlanks (s : List Char) : List Char := s.dropWhile isBlank

/-- May a character stand in a comment or a text of one line? -/
def isPlain (c : Char) : Bool := c == '\t' || (0x20 ≤ c.toNat && c.toNat ≠ 0x7F)

/-- The text behind a line break, if it begins with one. -/
def newline? : List Char → Option (List Char)
  | '\n' :: rest => some rest
  | '\r' :: '\n' :: rest => some rest
  | _ => none

/-- The text behind a comment, up to the end of its line. -/
def skipComment : List Char → List Char
  | '#' :: rest => rest.dropWhile isPlain
  | s => s

/-- The text behind blanks, comments and line breaks. -/
def skipLines (fuel : Nat) (s : List Char) : List Char :=
  match fuel with
  | 0 => s
  | fuel + 1 =>
    let s := skipComment (skipBlanks s)
    match newline? s with
    | some rest => skipLines fuel rest
    | none => s

/-- The end of a line, behind blanks and a comment. -/
def lineEnd? (s : List Char) : Option (List Char) :=
  match skipComment (skipBlanks s) with
  | [] => some []
  | s => newline? s

/-! ## Escapes -/

/-- The character with the code that hexadecimal digits write. -/
def charOfHex? (digits : List Char) : Option Char := do
  let code ← digits.foldlM (fun code c => (Text.digitValue? 16 c).map (code * 16 + ·)) 0
  if code.isValidChar then some (Char.ofNat code) else none

def hexEscape? (count : Nat) (s : List Char) : Option (Char × List Char) := do
  let digits := s.take count
  if digits.length < count then none
  let c ← charOfHex? digits
  return (c, s.drop count)

/-- The character behind a backslash. -/
def escape? : List Char → Option (Char × List Char)
  | 'b' :: rest => some ('\x08', rest)
  | 't' :: rest => some ('\t', rest)
  | 'n' :: rest => some ('\n', rest)
  | 'f' :: rest => some ('\x0c', rest)
  | 'r' :: rest => some ('\r', rest)
  | 'e' :: rest => some ('\x1b', rest)
  | '"' :: rest => some ('"', rest)
  | '\\' :: rest => some ('\\', rest)
  | 'x' :: rest => hexEscape? 2 rest
  | 'u' :: rest => hexEscape? 4 rest
  | 'U' :: rest => hexEscape? 8 rest
  | _ => none

/-! ## Texts of one line -/

/-- Puts a character before a scanned text. -/
def consChar (c : Char) (scanned : Option (List Char × List Char)) : Option (List Char × List Char) :=
  scanned.map fun (s, rest) => (c :: s, rest)

/-- A text without escapes, up to its quote. -/
def literal? : List Char → Option (List Char × List Char)
  | [] => none
  | '\'' :: rest => some ([], rest)
  | c :: rest => if isPlain c then consChar c (literal? rest) else none

/-- A text with escapes, up to its quote. -/
def basic? (fuel : Nat) (s : List Char) : Option (List Char × List Char) :=
  match fuel with
  | 0 => none
  | fuel + 1 =>
    match s with
    | [] => none
    | '"' :: rest => some ([], rest)
    | '\\' :: rest => do
      let (c, rest) ← escape? rest
      consChar c (basic? fuel rest)
    | c :: rest => if isPlain c then consChar c (basic? fuel rest) else none

/-! ## Texts of several lines -/

/-- The end of a text of several lines: three quotes, with at most two of its own before them. -/
def closing? (quote : Char) (s : List Char) : Option (List Char × List Char) :=
  let count := (s.takeWhile (· == quote)).length
  if count < 3 then none
  else
    let own := min (count - 3) 2
    some (List.replicate own quote, s.drop (own + 3))

/-- The text behind a line break that directly follows the opening quotes. -/
def skipFirstNewline (s : List Char) : List Char := (newline? s).getD s

/-- The text behind a backslash that ends a line: blank lines and the blanks of the next one are
passed over. -/
def joinLines? (fuel : Nat) (s : List Char) : Option (List Char) := do
  let rest ← newline? (skipBlanks s)
  return skipMore fuel rest
where
  skipMore : Nat → List Char → List Char
    | 0, s => s
    | fuel + 1, s =>
      let s := skipBlanks s
      match newline? s with
      | some rest => skipMore fuel rest
      | none => s

/-- A text of several lines up to its quotes, with escapes if `escapes`. -/
def lines? (quote : Char) (escapes : Bool) (fuel : Nat) (s : List Char) : Option (List Char × List Char) :=
  match fuel with
  | 0 => none
  | fuel + 1 =>
    match closing? quote s with
    | some closed => some closed
    | none =>
      match newline? s with
      | some rest => consChar '\n' (lines? quote escapes fuel rest)
      | none =>
        match s with
        | [] => none
        | c :: rest =>
          if c = '\\' ∧ escapes then
            match joinLines? rest.length rest with
            | some rest => lines? quote escapes fuel rest
            | none => do
              let (c, rest) ← escape? rest
              consChar c (lines? quote escapes fuel rest)
          else if isPlain c then consChar c (lines? quote escapes fuel rest)
          else none

/-- A quoted text, of one line only if `oneLine`. -/
def quoted? (oneLine : Bool) (s : List Char) : Option (String × List Char) :=
  let scanned := match s with
    | '"' :: '"' :: '"' :: rest =>
      if oneLine then none else lines? '"' true (rest.length + 1) (skipFirstNewline rest)
    | '\'' :: '\'' :: '\'' :: rest =>
      if oneLine then none else lines? '\'' false (rest.length + 1) (skipFirstNewline rest)
    | '"' :: rest => basic? (rest.length + 1) rest
    | '\'' :: rest => literal? rest
    | _ => none
  scanned.map fun (text, rest) => (String.ofList text, rest)

/-! ## Keys -/

def isBareKeyChar (c : Char) : Bool := Text.isAsciiAlphanumeric c || c == '-' || c == '_'

/-- One part of a key. -/
def keyPart? (s : List Char) : Option (String × List Char) :=
  match s.takeWhile isBareKeyChar with
  | [] => quoted? true s
  | bare => some (String.ofList bare, s.dropWhile isBareKeyChar)

/-- The parts of a key between dots, the last one last. Blanks around them are passed over. -/
def key? (fuel : Nat) (s : List Char) : Option ((List String × String) × List Char) :=
  match fuel with
  | 0 => none
  | fuel + 1 => do
    let (part, rest) ← keyPart? (skipBlanks s)
    match skipBlanks rest with
    | '.' :: rest =>
      let ((path, last), rest) ← key? fuel rest
      return ((part :: path, last), rest)
    | rest => return (([], part), rest)

end ParseView.Toml
