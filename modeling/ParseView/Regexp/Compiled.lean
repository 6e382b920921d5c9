import ParseView.Pattern.Match
import ParseView.Pattern.Reader
import ParseView.Pattern.Size
import ParseView.Regexp.EngineSyntax

/-!
# Compiled regular expressions

A literal's pattern and flags become a value that can be matched, or nothing when they cannot be
carried over exactly, when the engine refuses the pattern, or when it would grow too large. The
flags for searching from a place, for every match and for indices say how matching is driven, not
what the pattern means.
-/

namespace ParseView.Regexp

/-- The source of a regular expression literal. -/
structure Source where
  pattern : String
  flags : String
deriving DecidableEq, Repr

end Regexp

/-- A regular expression that can be matched. -/
structure Regexp where
  pattern : String
  flags : Regexp.Flags
  /-- The pattern in the engine's own syntax. -/
  enginePattern : String
  program : Pattern.Expr
deriving DecidableEq, Repr

namespace Regexp

/-- The engine's mode for a literal's flags. -/
def Flags.mode (flags : Flags) : Pattern.Mode :=
  { ignoreCase := flags.ignoreCase, multiLine := flags.multiline, dotAll := flags.dotAll }

/-- The program of a pattern in the engine's syntax. -/
def program? (mode : Pattern.Mode) (pattern : List Char) : Option Pattern.Expr := do
  let term ← Pattern.Term.ofText? pattern
  let (program, _) ← term.resolve mode
  if term.fits mode then some program else none

def compile? (source : Source) : Option Regexp := do
  let flags ← Flags.ofText? source.flags
  let pattern ← enginePattern? flags source.pattern.toList
  let program ← program? flags.mode pattern
  return ⟨source.pattern, flags, String.ofList pattern, program⟩

def isMatch (r : Regexp) (text : String) : Bool := r.program.isMatch text.toList

/-- The source that the value was made from, its flags in order. -/
def source (r : Regexp) : Source := ⟨r.pattern, r.flags.text⟩

/-- The value as a literal. -/
def text (r : Regexp) : String := "/" ++ r.pattern ++ "/" ++ r.flags.text

end Regexp

end ParseView
