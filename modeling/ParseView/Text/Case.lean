import ParseView.Text.CaseRuns
import ParseView.Text.CharClass

/-!
# Small letters and letters that differ by case

Simple case folding puts characters into classes, and a character is in the same class as another
one if both have the same least member. Small letters are written by the full mapping: a dotted
capital I becomes two characters, and a sigma at the end of a word has a form of its own.
-/

namespace ParseView.Text

/-- The least character equal to this one under simple case folding. -/
def foldCode (code : Nat) : Nat := imageUnder foldRuns code

/-- The characters equal to this one under simple case folding, itself among them. -/
def caseClass (code : Nat) : List Nat :=
  let least := foldCode code
  least :: foldRuns.filterMap fun run =>
    let origin := ((least : Int) - run.shift).toNat
    if run.covers origin then some origin else none

/-- Does a word reach from here to a cased character, looking past what case ignores? -/
def reachesCased (s : List Char) : Bool :=
  match s.dropWhile isCaseIgnorable with
  | c :: _ => isCased c
  | [] => false

def lowerChar (c : Char) : List Char :=
  if c.toNat = 0x130 then ['i', Char.ofNat 0x307]
  else [Char.ofNat (imageUnder lowerRuns c.toNat)]

/-- Small letters of a text, given the text before it in reverse. -/
def lowercaseFrom (before : List Char) : List Char → List Char
  | [] => []
  | c :: rest =>
    let lowered :=
      if c = 'Σ' then
        if reachesCased before ∧ !reachesCased rest then ['ς'] else ['σ']
      else lowerChar c
    lowered ++ lowercaseFrom (c :: before) rest

def lowercase (s : List Char) : List Char := lowercaseFrom [] s

end ParseView.Text
