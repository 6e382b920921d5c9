import ParseView.Text.Units

/-!
# Cutting text at byte offsets

An offset into a text counts bytes of its UTF-8 form. It can be cut there only if a character
begins or the text ends at the offset.
-/

namespace ParseView.Text

/-- The two parts of a text around a byte offset, if the offset is a character boundary. -/
def splitBytes? : Nat → List Char → Option (List Char × List Char)
  | 0, s => some ([], s)
  | _ + 1, [] => none
  | offset + 1, c :: rest =>
    if c.utf8Size ≤ offset + 1 then
      (splitBytes? (offset + 1 - c.utf8Size) rest).map fun (a, b) => (c :: a, b)
    else none

/-- Is a byte offset a place where the text can be cut? -/
def isBoundary (offset : Nat) (s : List Char) : Bool := (splitBytes? offset s).isSome

/-- The text between two byte offsets, if it can be cut at both and they are in order. -/
def slice? (start stop : Nat) (s : List Char) : Option (List Char) :=
  if start ≤ stop then do
    let (_, behind) ← splitBytes? start s
    let (inside, _) ← splitBytes? (stop - start) behind
    return inside
  else none

theorem append_of_splitBytes {offset : Nat} {s a b : List Char}
    (h : splitBytes? offset s = some (a, b)) : a ++ b = s := by
  fun_induction splitBytes? offset s generalizing a b with
  | case1 => simp at h; simp [← h.1, ← h.2]
  | case2 => simp at h
  | case3 _ _ _ _ ih =>
    simp only [Option.map_eq_some_iff, Prod.mk.injEq] at h
    obtain ⟨⟨x, y⟩, hs, rfl, rfl⟩ := h
    simp [ih hs]
  | case4 => simp at h

theorem utf8Length_of_splitBytes {offset : Nat} {s a b : List Char}
    (h : splitBytes? offset s = some (a, b)) : utf8Length a = offset := by
  fun_induction splitBytes? offset s generalizing a b with
  | case1 => simp at h; simp [h.1, utf8Length]
  | case2 => simp at h
  | case3 _ _ _ _ ih =>
    simp only [Option.map_eq_some_iff, Prod.mk.injEq] at h
    obtain ⟨⟨x, y⟩, hs, rfl, rfl⟩ := h
    have := ih hs
    simp only [utf8Length]
    omega
  | case4 => simp at h

theorem splitBytes?_append (a b : List Char) :
    splitBytes? (utf8Length a) (a ++ b) = some (a, b) := by
  induction a with
  | nil => rw [List.nil_append, utf8Length, splitBytes?]
  | cons c rest ih =>
      obtain ⟨size, hsize⟩ : ∃ n, utf8Length (c :: rest) = n + 1 :=
        ⟨c.utf8Size - 1 + utf8Length rest, by
          have := c.utf8Size_pos
          simp only [utf8Length]
          omega⟩
      have hrest : size + 1 - c.utf8Size = utf8Length rest := by
        rw [← hsize, utf8Length]
        omega
      rw [hsize, List.cons_append, splitBytes?, if_pos, hrest, ih]
      · rfl
      · rw [← hsize, utf8Length]
        omega

/-- A place where the text can be cut is the length of a beginning of it. -/
theorem isBoundary_iff {offset : Nat} {s : List Char} :
    isBoundary offset s = true ↔ ∃ a b, s = a ++ b ∧ utf8Length a = offset := by
  rw [isBoundary, Option.isSome_iff_exists]
  constructor
  · rintro ⟨⟨a, b⟩, h⟩
    exact ⟨a, b, (append_of_splitBytes h).symm, utf8Length_of_splitBytes h⟩
  · rintro ⟨a, b, rfl, rfl⟩
    exact ⟨(a, b), splitBytes?_append a b⟩

theorem slice?_append (a b c : List Char) :
    slice? (utf8Length a) (utf8Length (a ++ b)) (a ++ b ++ c) = some b := by
  have hlength : utf8Length (a ++ b) - utf8Length a = utf8Length b := by
    rw [utf8Length_append]
    omega
  rw [slice?, if_pos (by rw [utf8Length_append]; omega), List.append_assoc,
    splitBytes?_append, hlength]
  simp [splitBytes?_append]

end ParseView.Text
