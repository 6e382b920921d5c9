import ParseView.Text.CharClass
import ParseView.Text.PrintableTable

/-!
# Text in quotes

A text is shown between double quotes with a backslash before quotes and backslashes, short names
for the usual controls, and the code in braces for every other character that would not show by
itself.
-/

namespace ParseView.Text

/-- Does the character show by itself, without joining the one before it? -/
def showsAlone (c : Char) : Bool :=
  if c.toNat < 0x7F then 0x20 ≤ c.toNat
  else inChanges printableChanges c.toNat && !inChanges extendingChanges c.toNat

def quotedChar (c : Char) : List Char :=
  if c = '\x00' then ['\\', '0']
  else if c = '\t' then ['\\', 't']
  else if c = '\r' then ['\\', 'r']
  else if c = '\n' then ['\\', 'n']
  else if c = '"' then ['\\', '"']
  else if c = '\\' then ['\\', '\\']
  else if showsAlone c then [c]
  else '\\' :: 'u' :: '{' :: (Nat.toDigits 16 c.toNat ++ ['}'])

def quoted (s : String) : String :=
  String.ofList ('"' :: (s.toList.flatMap quotedChar ++ ['"']))

end ParseView.Text
