/-!
# Lengths of text

Offsets into a source are counted in bytes of its UTF-8 form, columns of a source map in UTF-16
units. Both are sums over the characters.
-/

namespace ParseView.Text

/-- Bytes of the UTF-8 form. -/
def utf8Length : List Char → Nat
  | [] => 0
  | c :: rest => c.utf8Size + utf8Length rest

/-- UTF-16 units of a character: two for those beyond the first sixty-five thousand. -/
def utf16Size (c : Char) : Nat := if c.toNat < 0x10000 then 1 else 2

def utf16Length : List Char → Nat
  | [] => 0
  | c :: rest => utf16Size c + utf16Length rest

theorem utf8Length_append (a b : List Char) :
    utf8Length (a ++ b) = utf8Length a + utf8Length b := by
  induction a with
  | nil => simp [utf8Length]
  | cons c rest ih => simp [utf8Length, ih, Nat.add_assoc]

theorem utf16Length_append (a b : List Char) :
    utf16Length (a ++ b) = utf16Length a + utf16Length b := by
  induction a with
  | nil => simp [utf16Length]
  | cons c rest ih => simp [utf16Length, ih, Nat.add_assoc]

@[simp] theorem utf8Length_eq_zero {s : List Char} : utf8Length s = 0 ↔ s = [] := by
  cases s with
  | nil => simp [utf8Length]
  | cons c rest =>
      have := c.utf8Size_pos
      simp only [utf8Length, reduceCtorEq, iff_false]
      omega

theorem utf8Length_pos {s : List Char} (h : s ≠ []) : 0 < utf8Length s :=
  Nat.pos_of_ne_zero (mt utf8Length_eq_zero.mp h)

theorem utf16Size_pos (c : Char) : 0 < utf16Size c := by
  rw [utf16Size]
  split <;> omega

end ParseView.Text
