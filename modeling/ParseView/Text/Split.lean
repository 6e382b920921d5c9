/-!
# Splitting text
-/

namespace ParseView.Text

/-- The parts of a text between separators, at least one. -/
def splitAt (separator : Char) : List Char → List (List Char)
  | [] => [[]]
  | c :: rest =>
    if c = separator then [] :: splitAt separator rest
    else
      match splitAt separator rest with
      | [] => [[c]]
      | part :: parts => (c :: part) :: parts

theorem splitAt_ne_nil (separator : Char) (s : List Char) : splitAt separator s ≠ [] := by
  cases s with
  | nil => simp [splitAt]
  | cons c rest =>
    simp only [splitAt]
    split
    · simp
    · split <;> simp

theorem splitAt_of_notMem {separator : Char} {part : List Char} (h : separator ∉ part) :
    splitAt separator part = [part] := by
  induction part with
  | nil => rfl
  | cons c rest ih =>
      rw [List.mem_cons, not_or] at h
      rw [splitAt, if_neg (Ne.symm h.1), ih h.2]

/-- The first part ends at the first separator. -/
theorem splitAt_append_cons {separator : Char} {part : List Char} (h : separator ∉ part)
    (rest : List Char) :
    splitAt separator (part ++ separator :: rest) = part :: splitAt separator rest := by
  induction part with
  | nil => rw [List.nil_append, splitAt, if_pos rfl]
  | cons c more ih =>
      rw [List.mem_cons, not_or] at h
      rw [List.cons_append, splitAt, if_neg (Ne.symm h.1), ih h.2]

/-- A separator between two texts keeps their parts apart. -/
theorem splitAt_append (separator : Char) (first second : List Char) :
    splitAt separator (first ++ separator :: second) =
      splitAt separator first ++ splitAt separator second := by
  induction first with
  | nil => simp [splitAt]
  | cons c rest ih =>
      rw [List.cons_append, splitAt, splitAt, ih]
      split
      · rfl
      · cases hrest : splitAt separator rest with
        | nil => exact absurd hrest (splitAt_ne_nil separator rest)
        | cons part parts => rfl

/-- A separator at the end has an empty part behind it. -/
theorem getLast?_splitAt {separator : Char} {s : List Char} (h : s.getLast? = some separator) :
    (splitAt separator s).getLast? = some [] := by
  obtain ⟨init, rfl⟩ := List.getLast?_eq_some_iff.mp h
  rw [splitAt_append, splitAt, List.getLast?_append]
  rfl

theorem notMem_of_mem_splitAt {separator : Char} {s part : List Char}
    (h : part ∈ splitAt separator s) : separator ∉ part := by
  induction s generalizing part with
  | nil => simp_all [splitAt]
  | cons c rest ih =>
      rw [splitAt] at h
      split at h
      · rcases List.mem_cons.mp h with rfl | h
        · exact List.not_mem_nil
        · exact ih h
      · next hc =>
          cases hrest : splitAt separator rest with
          | nil => exact absurd hrest (splitAt_ne_nil separator rest)
          | cons first parts =>
              rw [hrest] at h ih
              rcases List.mem_cons.mp h with rfl | h
              · rw [List.mem_cons, not_or]
                exact ⟨Ne.symm hc, ih List.mem_cons_self⟩
              · exact ih (List.mem_cons_of_mem _ h)

/-- A character that does not separate is in one of the parts. -/
theorem exists_mem_splitAt {separator c : Char} {s : List Char} (h : c ∈ s)
    (hc : c ≠ separator) : ∃ part ∈ splitAt separator s, c ∈ part := by
  induction s with
  | nil => exact absurd h List.not_mem_nil
  | cons d rest ih =>
      rw [splitAt]
      split
      · next hd =>
          have hrest : c ∈ rest := (List.mem_cons.mp h).resolve_left fun heq => hc (heq.trans hd)
          obtain ⟨part, hpart, hmem⟩ := ih hrest
          exact ⟨part, List.mem_cons_of_mem _ hpart, hmem⟩
      · cases hrest : splitAt separator rest with
        | nil => exact absurd hrest (splitAt_ne_nil separator rest)
        | cons first parts =>
            rcases List.mem_cons.mp h with rfl | h
            · exact ⟨c :: first, List.mem_cons_self, List.mem_cons_self⟩
            · obtain ⟨part, hpart, hmem⟩ := ih h
              rw [hrest] at hpart
              rcases List.mem_cons.mp hpart with rfl | hpart
              · exact ⟨d :: part, List.mem_cons_self, List.mem_cons_of_mem _ hmem⟩
              · exact ⟨part, List.mem_cons_of_mem _ hpart, hmem⟩

end ParseView.Text
