import ParseView.Edit.LineIndex
import ParseView.SourceMap.Mappings

/-!
# Places, counted in the text

`Position.behind text` is the place behind a text, counted directly: the line feeds in it
and the UTF-16 units since the last one. The program counts places in three ways. It
looks a byte offset up among the starts of lines, it counts along the text that it lays
out, and it counts along the source of a chunk while it lays that out. Each of them is
this place.
-/

namespace ParseView

open Text (utf8Length utf8Length_append utf16Length utf16Length_append)

namespace Edit

/-- What stands behind the last line feed of a text. -/
def lastLine (text : List Char) : List Char :=
  (text.reverse.takeWhile (· ≠ '\n')).reverse

/-- The place behind a text. -/
def Position.behind (text : List Char) : Position :=
  ⟨text.count '\n', utf16Length (lastLine text)⟩

theorem lastLine_append_singleton (text : List Char) (c : Char) :
    lastLine (text ++ [c]) = if c = '\n' then [] else lastLine text ++ [c] := by
  rw [lastLine, List.reverse_append, List.reverse_singleton, List.singleton_append,
    List.takeWhile_cons]
  split <;> simp_all [lastLine]

theorem Position.behind_append_singleton (text : List Char) (c : Char) :
    Position.behind (text ++ [c]) =
      if c = '\n' then ⟨(Position.behind text).line + 1, 0⟩
      else ⟨(Position.behind text).line,
        (Position.behind text).column + Text.utf16Size c⟩ := by
  rw [Position.behind, lastLine_append_singleton]
  split
  · next h => simp [Position.behind, h, utf16Length]
  · next h => simp [Position.behind, h, utf16Length_append, utf16Length]

/-- A text ends with its last line, which begins the text or follows a line feed. -/
theorem exists_lastLine (text : List Char) :
    ∃ init, text = init ++ lastLine text ∧ '\n' ∉ lastLine text ∧
      (init = [] ∨ ∃ more, init = more ++ ['\n']) := by
  refine ⟨(text.reverse.dropWhile (· ≠ '\n')).reverse, ?_, ?_, ?_⟩
  · rw [lastLine, ← List.reverse_append, List.takeWhile_append_dropWhile,
      List.reverse_reverse]
  · intro h
    have hall : (text.reverse.takeWhile (· ≠ '\n')).all (· ≠ '\n') = true :=
      List.all_takeWhile
    simpa using List.all_eq_true.mp hall '\n' (List.mem_reverse.mp h)
  · cases hd : text.reverse.dropWhile (· ≠ '\n') with
    | nil => exact .inl rfl
    | cons c rest =>
        have hc := List.head?_dropWhile_not (· ≠ '\n') text.reverse
        rw [hd] at hc
        exact .inr ⟨rest.reverse, by simpa using hc⟩

/-! ## Starts of lines -/

theorem lineStartsFrom_append (base : Nat) (a b : List Char) :
    lineStartsFrom base (a ++ b) =
      lineStartsFrom base a ++ lineStartsFrom (base + utf8Length a) b := by
  induction a generalizing base with
  | nil => simp [lineStartsFrom, utf8Length]
  | cons c rest ih =>
      simp only [List.cons_append, lineStartsFrom, ih, utf8Length, Nat.add_assoc]
      split <;> rfl

theorem length_lineStartsFrom (base : Nat) (text : List Char) :
    (lineStartsFrom base text).length = text.count '\n' := by
  induction text generalizing base with
  | nil => rfl
  | cons c rest ih =>
      rw [lineStartsFrom, List.count_cons]
      split <;> simp_all

/-- Every line but the first begins inside the text or at its end. -/
theorem bounds_of_mem_lineStartsFrom {base start : Nat} {text : List Char}
    (h : start ∈ lineStartsFrom base text) :
    base < start ∧ start ≤ base + utf8Length text := by
  induction text generalizing base with
  | nil => simp [lineStartsFrom] at h
  | cons c rest ih =>
      have hpos := c.utf8Size_pos
      have hrest : start = base + c.utf8Size ∨
          start ∈ lineStartsFrom (base + c.utf8Size) rest := by
        rw [lineStartsFrom] at h
        split at h
        · exact List.mem_cons.mp h
        · exact .inr h
      rw [utf8Length]
      rcases hrest with rfl | hm
      · omega
      · have := ih hm
        omega

theorem lineStartsFrom_of_notMem {base : Nat} {text : List Char} (h : '\n' ∉ text) :
    lineStartsFrom base text = [] := by
  rw [← List.length_eq_zero_iff, length_lineStartsFrom]
  exact List.count_eq_zero.mpr h

/-- The last line begins where what stands before it ends, and all other lines before. -/
theorem exists_lineStarts (text : List Char) :
    ∃ init left, text = init ++ lastLine text ∧
      0 :: lineStartsFrom 0 text = left ++ [utf8Length init] ∧
      left.length = text.count '\n' ∧ ∀ start ∈ left, start < utf8Length init := by
  obtain ⟨init, hsplit, hline, hinit⟩ := exists_lastLine text
  have hstarts : lineStartsFrom 0 text = lineStartsFrom 0 init := by
    rw [hsplit, lineStartsFrom_append, lineStartsFrom_of_notMem hline, List.append_nil]
  have hcount := length_lineStartsFrom 0 text
  rw [hstarts] at hcount ⊢
  rcases hinit with rfl | ⟨more, rfl⟩
  · exact ⟨[], [], hsplit, rfl, hcount, nofun⟩
  · have hnewline : utf8Length (more ++ ['\n']) = utf8Length more + 1 := utf8Length_append _ _
    have hmore : lineStartsFrom 0 (more ++ ['\n']) =
        lineStartsFrom 0 more ++ [utf8Length (more ++ ['\n'])] := by
      rw [lineStartsFrom_append, Nat.zero_add, hnewline]
      rfl
    rw [hmore, List.length_append] at hcount
    refine ⟨more ++ ['\n'], 0 :: lineStartsFrom 0 more, hsplit, ?_, hcount, ?_⟩
    · rw [hmore, List.cons_append]
    · intro start hstart
      rcases List.mem_cons.mp hstart with rfl | hstart
      · omega
      · have := bounds_of_mem_lineStartsFrom hstart
        omega

/-! ## Cutting at bytes -/

theorem dropBytes_append (a b : List Char) : dropBytes (utf8Length a) (a ++ b) = b := by
  induction a with
  | nil =>
      cases b with
      | nil => rfl
      | cons c rest =>
          have := c.utf8Size_pos
          rw [List.nil_append, utf8Length, dropBytes, if_neg (by omega)]
  | cons c rest ih =>
      rw [List.cons_append, dropBytes, utf8Length, if_pos (by omega),
        Nat.add_sub_cancel_left, ih]

/-- Past its end a text has no more bytes to give. -/
theorem takeBytes_of_min {count : Nat} {a b : List Char}
    (h : min count (utf8Length (a ++ b)) = utf8Length a) : takeBytes count (a ++ b) = a := by
  induction a generalizing count with
  | nil =>
      cases b with
      | nil => rfl
      | cons c rest =>
          have hpos := c.utf8Size_pos
          simp only [List.nil_append, utf8Length] at h
          rw [List.nil_append, takeBytes, if_neg (by omega)]
  | cons c rest ih =>
      simp only [List.cons_append, utf8Length] at h
      rw [List.cons_append, takeBytes, if_pos (by omega), ih (by omega)]

theorem takeBytes_append (a b : List Char) : takeBytes (utf8Length a) (a ++ b) = a :=
  takeBytes_of_min (Nat.min_eq_left (by rw [utf8Length_append]; omega))

/-! ## Searching

An offset may lie past the end of the text. All that the search needs of it is where it
leads to within the text, `min offset (utf8Length text)`. -/

variable {offset : Nat}

/-- The search among the starts of lines stops at the end of the text before. -/
theorem take_lineStarts {before behind : List Char}
    (h : min offset (utf8Length (before ++ behind)) = utf8Length before) :
    (0 :: lineStartsFrom 0 (before ++ behind)).take (partitionPoint
        (· ≤ offset) (0 :: lineStartsFrom 0 (before ++ behind))) =
      0 :: lineStartsFrom 0 before := by
  rw [utf8Length_append] at h
  have hbefore : ∀ start ∈ 0 :: lineStartsFrom 0 before, decide (start ≤ offset) = true := by
    intro start hm
    rcases List.mem_cons.mp hm with rfl | hm
    · exact decide_eq_true (Nat.zero_le _)
    · have := bounds_of_mem_lineStartsFrom hm
      exact decide_eq_true (by omega)
  have hbehind : ∀ start ∈ lineStartsFrom (0 + utf8Length before) behind,
      decide (start ≤ offset) = false := by
    intro start hm
    have := bounds_of_mem_lineStartsFrom hm
    exact decide_eq_false (by omega)
  rw [lineStartsFrom_append, ← List.cons_append, partitionPoint_append hbefore hbehind,
    List.take_left]

/-- The index puts an offset where the text before it ends, and one past the end where the
text ends. -/
theorem LineIndex.position_of_min {before behind : List Char}
    (h : min offset (utf8Length (before ++ behind)) = utf8Length before) :
    (LineIndex.ofSource (before ++ behind)).position offset = Position.behind before := by
  obtain ⟨init, left, hsplit, hstarts, hcount, -⟩ := exists_lineStarts before
  have hdrop : dropBytes (utf8Length init) (before ++ behind) = lastLine before ++ behind := by
    have happend := dropBytes_append init (lastLine before ++ behind)
    rwa [← List.append_assoc, ← hsplit] at happend
  have hrest : min (offset - utf8Length init) (utf8Length (lastLine before ++ behind)) =
      utf8Length (lastLine before) := by
    have hlength := (congrArg utf8Length hsplit).trans (utf8Length_append _ _)
    rw [utf8Length_append] at h ⊢
    omega
  rw [position, ofSource, take_lineStarts h, hstarts, List.getLastD_concat, hdrop,
    takeBytes_of_min hrest, List.length_append, hcount]
  rfl

/-- The index puts an offset where the text before it ends. -/
theorem LineIndex.position_eq (before behind : List Char) :
    (LineIndex.ofSource (before ++ behind)).position (utf8Length before) =
      Position.behind before :=
  position_of_min (Nat.min_eq_left (by rw [utf8Length_append]; omega))

end Edit

/-! ## Counting along a text -/

namespace SourceMap

open Edit (Position)

theorem Layout.stepOrigin_behind (text : List Char) (c : Char) :
    Layout.stepOrigin (Position.behind text) c = Position.behind (text ++ [c]) := by
  rw [Layout.stepOrigin, Position.behind_append_singleton]

/-- From the place behind a text the count goes on to that behind a longer one. -/
theorem Layout.foldl_stepOrigin (before text : List Char) :
    text.foldl Layout.stepOrigin (Position.behind before) = Position.behind (before ++ text) := by
  induction text generalizing before with
  | nil => rw [List.foldl_nil, List.append_nil]
  | cons c rest ih => rw [List.foldl_cons, stepOrigin_behind, ih, ← List.append_cons]

end SourceMap

end ParseView
