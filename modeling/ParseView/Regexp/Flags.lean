/-!
# Flags of a regular expression literal

A flag text names each of seven flags at most once, in any order. It is written back in
alphabetical order.
-/

namespace ParseView.Regexp

structure Flags where
  hasIndices : Bool := false
  isGlobal : Bool := false
  ignoreCase : Bool := false
  multiline : Bool := false
  dotAll : Bool := false
  unicode : Bool := false
  sticky : Bool := false
deriving DecidableEq, Repr, Inhabited

namespace Flags

/-- Turns a flag on; unknown flags and flags that are on already are refused. -/
def add (flags : Flags) : Char → Option Flags
  | 'd' => if flags.hasIndices then none else some { flags with hasIndices := true }
  | 'g' => if flags.isGlobal then none else some { flags with isGlobal := true }
  | 'i' => if flags.ignoreCase then none else some { flags with ignoreCase := true }
  | 'm' => if flags.multiline then none else some { flags with multiline := true }
  | 's' => if flags.dotAll then none else some { flags with dotAll := true }
  | 'u' => if flags.unicode then none else some { flags with unicode := true }
  | 'y' => if flags.sticky then none else some { flags with sticky := true }
  | _ => none

/-- Reads a flag text. -/
def ofChars? (letters : List Char) : Option Flags := letters.foldlM add {}

def ofText? (text : String) : Option Flags := ofChars? text.toList

/-- The letters of the flags that are on, in alphabetical order. -/
def letters (flags : Flags) : List Char :=
  [(flags.hasIndices, 'd'), (flags.isGlobal, 'g'), (flags.ignoreCase, 'i'), (flags.multiline, 'm'),
    (flags.dotAll, 's'), (flags.unicode, 'u'), (flags.sticky, 'y')].filterMap
      fun (isOn, letter) => if isOn then some letter else none

def text (flags : Flags) : String := String.ofList flags.letters

end Flags

end ParseView.Regexp
