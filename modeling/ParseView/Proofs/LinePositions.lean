import Mathlib.Algebra.Group.Nat.Defs
import ParseView.Proofs.MapSegments

/-!
# Offsets and their positions

The position of an offset is looked up by bytes and kept in two numbers of 32 bits. A line
begins behind every byte that is a line feed. The row of these starts is searched for the
offset, which is found there or would go into a gap, and what stands between the start of its
line and the offset is cut out of the text and measured; for the cut, but not for the search,
an offset past the end is the end. `storedPosition?` does all this, with no answer where the
row has no such start or a cut falls into a character.

It comes to `Position.behind` of the text before the offset, as the index by characters does.
No byte of another character is a line feed, so that the starts by bytes are those by
characters (`byteStartsFrom_utf8Bytes`). The row has the starts up to that of the line and
then those past the offset (`exists_byteStarts`); whether the offset is found as the start of
the line or falls into the gap behind it, the search comes to this line (`lineOf_searchRow`).

Positions grow with the text, since every character takes the column or the line further.
Hence the order of offsets is that of their positions, and a count along a slice arrives
where the slice ends. In words each step of the count is a sum that must fit, and it fits if
the position that it leads to does; so the count needs this of every position on its way and
of no other.
-/

namespace ParseView

open Text (utf8Length utf8Length_append utf16Length isBoundary isBoundary_iff)

namespace Edit

open SourceMap.Layout (stepOrigin stepOrigin_behind foldl_stepOrigin)

variable {source : List Char} {a b offset : Nat}

/-! ## Offsets -/

/-- Where an offset leads to, if the text can be cut there or has ended before. -/
theorem exists_beginning (h : isBoundary offset source = true ∨ utf8Length source ≤ offset) :
    ∃ before behind, source = before ++ behind ∧
      min offset (utf8Length source) = utf8Length before := by
  rcases h with h | h
  · obtain ⟨before, behind, rfl, rfl⟩ := isBoundary_iff.mp h
    exact ⟨before, behind, rfl, Nat.min_eq_left (by rw [utf8Length_append]; omega)⟩
  · exact ⟨source, [], (List.append_nil source).symm, Nat.min_eq_right h⟩

/-- Two offsets in order cut a text into three. -/
theorem exists_between (ha : isBoundary a source = true) (hb : isBoundary b source = true)
    (hab : a ≤ b) : ∃ before text behind, source = before ++ text ++ behind ∧
      utf8Length before = a ∧ utf8Length (before ++ text) = b := by
  obtain ⟨before, rest, hsource, rfl⟩ := isBoundary_iff.mp ha
  obtain ⟨longer, behind, hlonger, rfl⟩ := isBoundary_iff.mp hb
  rcases List.append_eq_append_iff.mp (hsource.symm.trans hlonger) with
    ⟨text, rfl, hrest⟩ | ⟨text, rfl, hbehind⟩
  · exact ⟨before, text, behind, hlonger, rfl, rfl⟩
  · -- The beginning that should be the longer one is the shorter, so nothing is between.
    have htext : text = [] := by
      rw [← Text.utf8Length_eq_zero]
      rw [utf8Length_append] at hab
      omega
    subst htext
    exact ⟨longer, [], behind, by simpa using hlonger, by simp, by simp⟩

/-! ## The order of positions -/

theorem Position.Before.asymm {p q : Position} (h : p.Before q) : ¬ q.Before p :=
  fun h' => (h.trans h').ne rfl

/-- Of two offsets the smaller one has the position before. -/
theorem LineIndex.position_before (ha : isBoundary a source = true)
    (hb : isBoundary b source = true) (hab : a < b) :
    ((ofSource source).position a).Before ((ofSource source).position b) := by
  obtain ⟨before, text, behind, rfl, rfl, rfl⟩ := exists_between ha hb (Nat.le_of_lt hab)
  cases text with
  | nil => exact absurd hab (by simp)
  | cons c more =>
      rw [position_eq, List.append_assoc, position_eq]
      exact Position.behind_before before c more

theorem LineIndex.position_before_iff (ha : isBoundary a source = true)
    (hb : isBoundary b source = true) :
    ((ofSource source).position a).Before ((ofSource source).position b) ↔ a < b := by
  constructor
  · intro h
    rw [← Nat.not_le]
    intro hle
    rcases Nat.lt_or_eq_of_le hle with hlt | rfl
    · exact h.asymm (position_before hb ha hlt)
    · exact h.ne rfl
  · exact position_before ha hb

theorem LineIndex.position_inj (ha : isBoundary a source = true)
    (hb : isBoundary b source = true) :
    (ofSource source).position a = (ofSource source).position b ↔ a = b := by
  constructor
  · intro h
    rcases Nat.lt_trichotomy a b with hlt | heq | hlt
    · exact absurd h (position_before ha hb hlt).ne
    · exact heq
    · exact absurd h.symm (position_before hb ha hlt).ne
  · exact congrArg _

/-! ## Starts of lines by bytes -/

/-- The bytes of the UTF-8 form of a text. -/
def utf8Bytes (text : List Char) : List UInt8 := text.flatMap String.utf8EncodeChar

/-- The offsets behind the bytes that are line feeds, counted from `base`. -/
def byteStartsFrom (base : Nat) : List UInt8 → List Nat
  | [] => []
  | byte :: rest =>
    let next := base + 1
    if byte = 10 then next :: byteStartsFrom next rest else byteStartsFrom next rest

theorem utf8Bytes_append (s t : List Char) : utf8Bytes (s ++ t) = utf8Bytes s ++ utf8Bytes t :=
  List.flatMap_append

theorem length_utf8Bytes (text : List Char) : (utf8Bytes text).length = utf8Length text := by
  induction text with
  | nil => rfl
  | cons c rest ih =>
      rw [utf8Bytes, List.flatMap_cons, List.length_append, String.length_utf8EncodeChar,
        utf8Length]
      exact congrArg _ ih

theorem ofNat_eq_newline_iff {n : Nat} (hn : n < 256) :
    (10 : UInt8) = UInt8.ofNat n ↔ n = 10 := by
  rw [← UInt8.toNat_inj, UInt8.toNat_ofNat_of_lt' hn]
  exact eq_comm

theorem newline_notMem_utf8EncodeChar {c : Char} (h : c ≠ '\n') :
    10 ∉ String.utf8EncodeChar c := by
  have hc : c.val.toNat ≠ 10 := fun hc => h (Char.ext (UInt32.toNat_inj.mp hc))
  -- Every byte of a longer character has its highest bit.
  fun_cases String.utf8EncodeChar c with
  | case1 | case2 | case3 | case4 =>
      simp (disch := omega) only [List.mem_cons, List.not_mem_nil, or_false,
        ofNat_eq_newline_iff]
      omega

theorem byteStartsFrom_append (base : Nat) (s t : List UInt8) :
    byteStartsFrom base (s ++ t) =
      byteStartsFrom base s ++ byteStartsFrom (base + s.length) t := by
  induction s generalizing base with
  | nil => rfl
  | cons byte rest ih =>
      simp only [List.cons_append, byteStartsFrom, ih, List.length_cons, Nat.add_assoc,
        Nat.add_comm 1]
      split <;> rfl

theorem byteStartsFrom_of_notMem {bytes : List UInt8} (h : 10 ∉ bytes) (base : Nat) :
    byteStartsFrom base bytes = [] := by
  induction bytes generalizing base with
  | nil => rfl
  | cons byte rest ih =>
      rw [List.mem_cons, not_or] at h
      rw [byteStartsFrom, if_neg (Ne.symm h.1), ih h.2]

theorem byteStartsFrom_utf8Bytes (base : Nat) (text : List Char) :
    byteStartsFrom base (utf8Bytes text) = lineStartsFrom base text := by
  induction text generalizing base with
  | nil => rfl
  | cons c rest ih =>
      rw [utf8Bytes, List.flatMap_cons, byteStartsFrom_append, String.length_utf8EncodeChar,
        lineStartsFrom]
      by_cases hc : c = '\n'
      · subst hc
        exact congrArg _ (ih _)
      · rw [byteStartsFrom_of_notMem (newline_notMem_utf8EncodeChar hc), if_neg hc]
        exact ih _

theorem count_utf8Bytes (text : List Char) : (utf8Bytes text).count 10 = text.count '\n' := by
  induction text with
  | nil => rfl
  | cons c rest ih =>
      rw [utf8Bytes, List.flatMap_cons, List.count_append]
      by_cases hc : c = '\n'
      · subst hc
        rw [List.count_cons_self, Nat.add_comm]
        exact congrArg (· + 1) ih
      · rw [List.count_eq_zero.mpr (newline_notMem_utf8EncodeChar hc), Nat.zero_add,
          List.count_cons_of_ne hc]
        exact ih

theorem take_utf8Bytes (before behind : List Char) :
    (utf8Bytes (before ++ behind)).take (utf8Length before) = utf8Bytes before := by
  rw [utf8Bytes_append, ← length_utf8Bytes, List.take_left]

/-! ## The search -/

/-- What a number is found at in a row, or the gap that it would go into. -/
inductive SearchResult where
  | found (index : Nat)
  | gap (index : Nat)
deriving DecidableEq, Repr

/-- Searches a row in rising order. -/
def searchRow (row : List Nat) (n : Nat) : SearchResult :=
  let index := partitionPoint (· < n) row
  if row[index]? = some n then .found index else .gap index

/-- The line that begins there, or the one that begins before the gap. -/
def SearchResult.lineOf : SearchResult → Nat
  | .found index => index
  | .gap index => index - 1

section Row

variable {left right : List Nat} {n : Nat}

theorem searchRow_found (hleft : ∀ x ∈ left, x < n) (hright : ∀ x ∈ right, n < x) :
    searchRow (left ++ n :: right) n = .found left.length := by
  have hsmaller : ∀ x ∈ left, decide (x < n) = true := fun x hx => decide_eq_true (hleft x hx)
  have hlarger : ∀ x ∈ n :: right, decide (x < n) = false := by
    intro x hx
    rcases List.mem_cons.mp hx with rfl | hx
    · exact decide_eq_false (Nat.lt_irrefl x)
    · exact decide_eq_false (Nat.not_lt_of_gt (hright x hx))
  have hpresent : (left ++ n :: right)[left.length]? = some n := by
    rw [List.getElem?_append_right (Nat.le_refl _), Nat.sub_self, List.getElem?_cons_zero]
  rw [searchRow, partitionPoint_append hsmaller hlarger, if_pos hpresent]

theorem searchRow_gap (hleft : ∀ x ∈ left, x < n) (hright : ∀ x ∈ right, n < x) :
    searchRow (left ++ right) n = .gap left.length := by
  have hsmaller : ∀ x ∈ left, decide (x < n) = true := fun x hx => decide_eq_true (hleft x hx)
  have hlarger : ∀ x ∈ right, decide (x < n) = false := fun x hx =>
    decide_eq_false (Nat.not_lt_of_gt (hright x hx))
  have habsent : (left ++ right)[left.length]? ≠ some n := by
    rw [List.getElem?_append_right (Nat.le_refl _)]
    exact fun h => Nat.lt_irrefl n (hright n (List.mem_of_getElem? h))
  rw [searchRow, partitionPoint_append hsmaller hlarger, if_neg habsent]

/-- From a start or from the gap behind it, the line is that of the last start. -/
theorem lineOf_searchRow {start : Nat} (hleft : ∀ x ∈ left, x < start) (hstart : start ≤ n)
    (hright : ∀ x ∈ right, n < x) :
    (searchRow (left ++ start :: right) n).lineOf = left.length := by
  rcases Nat.lt_or_eq_of_le hstart with hlt | rfl
  · have hall : ∀ x ∈ left ++ [start], x < n := by
      intro x hx
      rcases List.mem_append.mp hx with hx | hx
      · exact Nat.lt_trans (hleft x hx) hlt
      · rwa [List.mem_singleton.mp hx]
    rw [List.append_cons, searchRow_gap hall hright, SearchResult.lineOf, List.length_append]
    rfl
  · rw [searchRow_found hleft hright, SearchResult.lineOf]

end Row

/-! ## Positions in words -/

/-- A position as it is kept. -/
structure StoredPosition where
  line : UInt32
  column : UInt32
deriving DecidableEq, Repr

/-- The counts are cut down to 32 bits. -/
def Position.stored (position : Position) : StoredPosition :=
  ⟨UInt32.ofNat position.line, UInt32.ofNat position.column⟩

def StoredPosition.position (stored : StoredPosition) : Position :=
  ⟨stored.line.toNat, stored.column.toNat⟩

/-- The position of an offset, found by bytes. -/
def storedPosition? (source : List Char) (offset : Nat) : Option StoredPosition := do
  let starts := 0 :: byteStartsFrom 0 (utf8Bytes source)
  let line := (searchRow starts offset).lineOf
  let start ← starts[line]?
  let text ← Text.slice? start (min offset (utf8Length source)) source
  return Position.stored ⟨line, utf16Length text⟩

/-- The starts of lines in a text up to that of the line where a beginning of it ends, and
those behind this beginning. -/
theorem exists_byteStarts (before behind : List Char) :
    ∃ init left right, before = init ++ lastLine before ∧
      0 :: byteStartsFrom 0 (utf8Bytes (before ++ behind)) =
        left ++ utf8Length init :: right ∧
      left.length = before.count '\n' ∧ (∀ start ∈ left, start < utf8Length init) ∧
      ∀ start ∈ right, utf8Length before < start ∧ start ≤ utf8Length (before ++ behind) := by
  obtain ⟨init, left, hsplit, hstarts, hcount, hleft⟩ := exists_lineStarts before
  refine ⟨init, left, lineStartsFrom (utf8Length before) behind, hsplit, ?_, hcount, hleft, ?_⟩
  · rw [byteStartsFrom_utf8Bytes, lineStartsFrom_append, ← List.cons_append, hstarts,
      Nat.zero_add, ← List.append_cons]
  · intro start hstart
    rw [utf8Length_append]
    exact bounds_of_mem_lineStartsFrom hstart

theorem storedPosition?_of_min {before behind : List Char}
    (h : min offset (utf8Length (before ++ behind)) = utf8Length before) :
    storedPosition? (before ++ behind) offset = some (Position.behind before).stored := by
  obtain ⟨init, left, right, hsplit, hstarts, hcount, hleft, hright⟩ :=
    exists_byteStarts before behind
  have hlength := (congrArg utf8Length hsplit).trans (utf8Length_append _ _)
  have hpast : ∀ start ∈ right, offset < start := by
    intro start hstart
    have := hright start hstart
    omega
  have hline : (searchRow (left ++ utf8Length init :: right) offset).lineOf = left.length :=
    lineOf_searchRow hleft (by omega) hpast
  have hstart : (left ++ utf8Length init :: right)[left.length]? = some (utf8Length init) := by
    rw [List.getElem?_append_right (Nat.le_refl _), Nat.sub_self, List.getElem?_cons_zero]
  have hslice : Text.slice? (utf8Length init) (utf8Length before) (before ++ behind) =
      some (lastLine before) := by
    have happend := Text.slice?_append init (lastLine before) behind
    rwa [← hsplit] at happend
  simp only [storedPosition?, hstarts, hline, hstart, h, hslice, Option.bind_eq_bind,
    Option.bind_some]
  rw [hcount]
  rfl

theorem storedPosition?_eq (before behind : List Char) :
    storedPosition? (before ++ behind) (utf8Length before) =
      some (Position.behind before).stored :=
  storedPosition?_of_min (Nat.min_eq_left (by rw [utf8Length_append]; omega))

/-! ## Counts below the bound -/

/-- The counts of a position fit into 32 bits. -/
structure Position.Fits (position : Position) : Prop where
  line : position.line < 2 ^ 32
  column : position.column < 2 ^ 32

theorem utf16Size_le_utf8Size (c : Char) : Text.utf16Size c ≤ c.utf8Size := by
  rw [Text.utf16Size]
  split
  · exact c.utf8Size_pos
  · next h =>
      have hlarge (bound : UInt32) (hbound : bound.toNat < 0x10000) : ¬ c.val ≤ bound := by
        have hc : c.val.toNat = c.toNat := rfl
        rw [UInt32.le_iff_toNat_le]
        omega
      rw [Char.utf8Size, if_neg (hlarge _ (by decide)), if_neg (hlarge _ (by decide)),
        if_neg (hlarge _ (by decide))]
      decide

theorem utf16Length_le_utf8Length (text : List Char) : utf16Length text ≤ utf8Length text := by
  induction text with
  | nil => exact Nat.le_refl 0
  | cons c rest ih => exact Nat.add_le_add (utf16Size_le_utf8Size c) ih

theorem length_le_utf8Length (text : List Char) : text.length ≤ utf8Length text := by
  induction text with
  | nil => exact Nat.le_refl 0
  | cons c rest ih =>
      have hpos := c.utf8Size_pos
      rw [List.length_cons, utf8Length]
      omega

/-- All counts fit in a text of less than four gigabytes. -/
theorem Position.fits_behind {before : List Char} (h : utf8Length before < 2 ^ 32) :
    (Position.behind before).Fits := by
  obtain ⟨init, hsplit, -⟩ := exists_lastLine before
  have hlines : before.count '\n' ≤ utf8Length before :=
    Nat.le_trans List.count_le_length (length_le_utf8Length before)
  have hcolumn := utf16Length_le_utf8Length (lastLine before)
  have hlength := (congrArg utf8Length hsplit).trans (utf8Length_append _ _)
  exact ⟨show before.count '\n' < 2 ^ 32 by omega,
    show utf16Length (lastLine before) < 2 ^ 32 by omega⟩

theorem LineIndex.position_fits (h : utf8Length source < 2 ^ 32)
    (ha : isBoundary a source = true) : ((ofSource source).position a).Fits := by
  obtain ⟨before, behind, rfl, rfl⟩ := isBoundary_iff.mp ha
  rw [utf8Length_append] at h
  rw [position_eq]
  exact Position.fits_behind (by omega)

theorem Position.position_stored {position : Position} (h : position.Fits) :
    position.stored.position = position := by
  rw [stored, StoredPosition.position, UInt32.toNat_ofNat_of_lt' h.line,
    UInt32.toNat_ofNat_of_lt' h.column]

/-! ## Counting along a slice in words -/

/-- A sum of two words, if it fits. -/
def addWord? (m n : UInt32) : Option UInt32 :=
  if m.toNat + n.toNat < 2 ^ 32 then some (m + n) else none

theorem exists_addWord? {m n : UInt32} (h : m.toNat + n.toNat < 2 ^ 32) :
    ∃ sum, addWord? m n = some sum ∧ sum.toNat = m.toNat + n.toNat := by
  refine ⟨m + n, if_pos h, ?_⟩
  rw [UInt32.toNat_add, Nat.mod_eq_of_lt h]

namespace StoredPosition

/-- The position behind a character. -/
def step? (stored : StoredPosition) (c : Char) : Option StoredPosition :=
  if c = '\n' then do
    let line ← addWord? stored.line 1
    return ⟨line, 0⟩
  else do
    let column ← addWord? stored.column (UInt32.ofNat (Text.utf16Size c))
    return ⟨stored.line, column⟩

/-- The position behind a text. -/
def walk? (stored : StoredPosition) (text : List Char) : Option StoredPosition :=
  text.foldlM step? stored

theorem position_injective {p q : StoredPosition} (h : p.position = q.position) : p = q := by
  cases p
  cases q
  simp only [position, Position.mk.injEq, UInt32.toNat_inj] at h
  obtain ⟨hline, hcolumn⟩ := h
  rw [hline, hcolumn]

theorem exists_step? {stored : StoredPosition} {c : Char}
    (h : (stepOrigin stored.position c).Fits) :
    ∃ next, stored.step? c = some next ∧
      next.position = stepOrigin stored.position c := by
  rw [step?, stepOrigin]
  rw [stepOrigin] at h
  split at h
  · next hc =>
      obtain ⟨line, hline, hsum⟩ := exists_addWord? (m := stored.line) (n := 1) h.line
      refine ⟨⟨line, 0⟩, ?_, ?_⟩
      · rw [if_pos hc, hline]
        rfl
      · rw [if_pos hc, position, hsum]
        rfl
  · next hc =>
      have hsize : (UInt32.ofNat (Text.utf16Size c)).toNat = Text.utf16Size c := by
        rw [Text.utf16Size]
        split <;> rfl
      obtain ⟨column, hcolumn, hsum⟩ :=
        exists_addWord? (m := stored.column) (by rw [hsize]; exact h.column)
      refine ⟨⟨stored.line, column⟩, ?_, ?_⟩
      · rw [if_neg hc, hcolumn]
        rfl
      · rw [if_neg hc, position, hsum, hsize]
        rfl

/-- The count is carried through by the text that was passed, which the position stands for. -/
theorem exists_walk? {stored : StoredPosition} {before text : List Char}
    (h : stored.position = Position.behind before)
    (hfits : ∀ beginning more, text = beginning ++ more →
      (Position.behind (before ++ beginning)).Fits) :
    ∃ last, stored.walk? text = some last ∧ last.position = Position.behind (before ++ text) := by
  induction text generalizing stored before with
  | nil => exact ⟨stored, rfl, by rw [h, List.append_nil]⟩
  | cons c rest ih =>
      have hstep : stepOrigin stored.position c = Position.behind (before ++ [c]) := by
        rw [h, stepOrigin_behind]
      have hfirst : (stepOrigin stored.position c).Fits := by
        rw [hstep]
        exact hfits [c] rest rfl
      have hrest : ∀ beginning more, rest = beginning ++ more →
          (Position.behind (before ++ [c] ++ beginning)).Fits := by
        rintro beginning more rfl
        rw [← List.append_cons]
        exact hfits (c :: beginning) more rfl
      obtain ⟨next, hnext, hposition⟩ := exists_step? hfirst
      obtain ⟨last, hlast, hbehind⟩ := ih (hposition.trans hstep) hrest
      refine ⟨last, ?_, ?_⟩
      · rw [walk?, List.foldlM_cons, hnext]
        exact hlast
      · rw [hbehind, ← List.append_cons]

end StoredPosition

theorem walk?_stored {before text : List Char}
    (hfits : ∀ beginning more, text = beginning ++ more →
      (Position.behind (before ++ beginning)).Fits) :
    (Position.behind before).stored.walk? text =
      some (Position.behind (before ++ text)).stored := by
  have hbefore : (Position.behind before).Fits := by
    have hnone := hfits [] text rfl
    rwa [List.append_nil] at hnone
  have htext := hfits text [] (List.append_nil text).symm
  obtain ⟨last, hlast, hposition⟩ :=
    StoredPosition.exists_walk? (Position.position_stored hbefore) hfits
  rw [hlast, StoredPosition.position_injective
    (hposition.trans (Position.position_stored htext).symm)]

/-! ## Positions and counts -/

/-- The position of an offset is counted in the text before it, which for an offset past the
end is the whole text: the bytes that are line feeds, and the UTF-16 units behind the last of
them. It is found by bytes, and kept in words it is the same if its counts fit. The order of
offsets is that of their positions, no two of which are the same, and from the position of
one offset the count along the text arrives at that of any later one, also in words if the
counts fit on the way. -/
theorem LineIndex.position_counts (source : List Char) :
    (∀ offset, isBoundary offset source = true ∨ utf8Length source ≤ offset →
      ∃ before behind stored,
        Text.splitBytes? (min offset (utf8Length source)) source = some (before, behind) ∧
        (ofSource source).position offset =
          ⟨((utf8Bytes source).take (min offset (utf8Length source))).count 10,
            utf16Length (lastLine before)⟩ ∧
        storedPosition? source offset = some stored ∧
        (((ofSource source).position offset).Fits →
          stored.position = (ofSource source).position offset)) ∧
    (∀ a b, isBoundary a source = true → isBoundary b source = true →
      (((ofSource source).position a).Before ((ofSource source).position b) ↔ a < b) ∧
      ((ofSource source).position a = (ofSource source).position b ↔ a = b)) ∧
    (∀ a b, isBoundary a source = true → isBoundary b source = true → a ≤ b →
      ∃ text first last, Text.slice? a b source = some text ∧
        storedPosition? source a = some first ∧ storedPosition? source b = some last ∧
        text.foldl stepOrigin ((ofSource source).position a) = (ofSource source).position b ∧
        ((∀ c, isBoundary c source = true → a ≤ c → c ≤ b →
            ((ofSource source).position c).Fits) →
          first.walk? text = some last)) := by
  refine ⟨?_, ?_, ?_⟩
  · intro offset h
    obtain ⟨before, behind, rfl, hmin⟩ := exists_beginning h
    have hposition := position_of_min hmin
    refine ⟨before, behind, _, ?_, ?_, storedPosition?_of_min hmin, fun hfits => ?_⟩
    · rw [hmin, Text.splitBytes?_append]
    · rw [hposition, hmin, take_utf8Bytes, count_utf8Bytes]
      rfl
    · rw [hposition] at hfits ⊢
      exact Position.position_stored hfits
  · intro a b ha hb
    exact ⟨position_before_iff ha hb, position_inj ha hb⟩
  · intro a b ha hb hab
    obtain ⟨before, text, behind, rfl, rfl, rfl⟩ := exists_between ha hb hab
    have hfirst := storedPosition?_eq before (text ++ behind)
    have hbefore := position_eq before (text ++ behind)
    rw [← List.append_assoc] at hfirst hbefore
    refine ⟨text, _, _, Text.slice?_append before text behind, hfirst,
      storedPosition?_eq (before ++ text) behind, ?_, fun hfits => walk?_stored ?_⟩
    · rw [hbefore, position_eq, foldl_stepOrigin]
    · rintro beginning more rfl
      have hsplit : before ++ (beginning ++ more) ++ behind =
          before ++ beginning ++ (more ++ behind) := by simp only [List.append_assoc]
      have hbeginning := hfits (utf8Length (before ++ beginning))
        (isBoundary_iff.mpr ⟨before ++ beginning, more ++ behind, hsplit, rfl⟩)
        (by rw [utf8Length_append]; omega) (by simp only [utf8Length_append]; omega)
      rwa [hsplit, position_eq] at hbeginning

/-- A character of four bytes and two units, with line feeds on both sides of it. -/
def astralLines : List Char := "a\r\n😀b\n".toList

/-- Past the end, across the character, and along a slice that begins with a line feed. -/
theorem LineIndex.position_counts_around_astral :
    (∃ stored, storedPosition? astralLines 100 = some stored ∧ stored.position = ⟨2, 0⟩) ∧
    ((ofSource astralLines).position 7).Before ((ofSource astralLines).position 9) ∧
    (∃ first last, storedPosition? astralLines 2 = some first ∧
      storedPosition? astralLines 8 = some last ∧
      first.walk? "\n😀b".toList = some last) := by
  obtain ⟨hplace, horder, hwalk⟩ := position_counts astralLines
  refine ⟨?_, ?_, ?_⟩
  · obtain ⟨before, behind, stored, hsplit, hposition, hstored, hsame⟩ :=
      hplace 100 (.inr (by decide))
    have hall : Text.splitBytes? (min 100 (utf8Length astralLines)) astralLines =
        some (astralLines, []) := by decide +kernel
    obtain ⟨rfl, rfl⟩ := Prod.mk.inj (Option.some.inj (hall.symm.trans hsplit))
    have hcounts : (ofSource astralLines).position 100 = ⟨2, 0⟩ :=
      hposition.trans (by decide +kernel)
    rw [hcounts] at hsame
    exact ⟨stored, hstored, hsame ⟨by decide, by decide⟩⟩
  · exact (horder 7 9 (by decide) (by decide)).1.mpr (by decide)
  · obtain ⟨text, first, last, hslice, hfirst, hlast, -, hcount⟩ :=
      hwalk 2 8 (by decide) (by decide) (by decide)
    have htext : Text.slice? 2 8 astralLines = some "\n😀b".toList := by decide +kernel
    obtain rfl := Option.some.inj (htext.symm.trans hslice)
    exact ⟨first, last, hfirst, hlast,
      hcount fun c hc _ _ => position_fits (by decide) hc⟩

end Edit

end ParseView
