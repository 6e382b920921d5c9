import ParseView.Edit.Buffer

/-!
# The chunks of a row tile a text

A row of chunks stores where each chunk begins and ends, and nothing in its type
makes these numbers fit together. `Tiles before text row` says that they do: read
from left to right the chunks stand for one piece of `text` after the other, none
of them empty, counted from the end of `before`, and a chunk that was never edited
shows the piece it stands for.

The pieces are texts and not pairs of offsets. An offset between characters then is
the same thing as a way to write the text as two parts, and every question about
offsets that the buffer asks becomes one about appended lists. What an offset can
meet in such a row is `Located`: an edge, or one chunk that goes on behind it. The
searches of the buffer are read off from there, since the chunks up to an edge pass
each of its tests and the chunks behind it fail it.
-/

namespace ParseView.Edit

open Text (utf8Length utf8Length_append utf8Length_pos)

/-- A chunk stands for a piece of a text, which lies behind `before`. -/
structure Chunk.Covers (before piece : List Char) (chunk : Chunk) : Prop where
  ne_nil : piece ≠ []
  start_eq : chunk.start = utf8Length before
  stop_eq : chunk.stop = utf8Length (before ++ piece)
  content_eq : chunk.isEdited = false → chunk.content = piece

theorem Chunk.Covers.start_lt_stop {before piece : List Char} {chunk : Chunk}
    (h : chunk.Covers before piece) : chunk.start < chunk.stop := by
  have := utf8Length_pos h.ne_nil
  rw [h.start_eq, h.stop_eq, utf8Length_append]
  omega

/-- A row of chunks stands for a text, piece by piece, behind `before`. -/
inductive Tiles : List Char → List Char → List Chunk → Prop
  | nil (before : List Char) : Tiles before [] []
  | cons {before piece behind : List Char} {chunk : Chunk} {rest : List Chunk} :
      chunk.Covers before piece → Tiles (before ++ piece) behind rest →
      Tiles before (piece ++ behind) (chunk :: rest)

namespace Tiles

variable {before text a b c : List Char} {row left right : List Chunk} {chunk : Chunk}

theorem singleton (h : chunk.Covers before text) : Tiles before text [chunk] := by
  simpa using Tiles.cons h (Tiles.nil (before ++ text))

theorem append (hl : Tiles before a left) (hr : Tiles (before ++ a) b right) :
    Tiles before (a ++ b) (left ++ right) := by
  induction hl with
  | nil before => simpa using hr
  | cons hc _ ih =>
      rw [List.append_assoc]
      exact .cons hc (ih (by simpa using hr))

/-- Two rows one behind the other stand for two texts one behind the other. -/
theorem of_append (h : Tiles before text (left ++ right)) :
    ∃ a b, text = a ++ b ∧ Tiles before a left ∧ Tiles (before ++ a) b right := by
  induction left generalizing before text with
  | nil => exact ⟨[], text, rfl, .nil before, by simpa using h⟩
  | cons chunk rest ih =>
      cases h with
      | cons hc hrest =>
          obtain ⟨a, b, rfl, hl, hr⟩ := ih hrest
          exact ⟨_, b, by rw [List.append_assoc], .cons hc hl, by simpa using hr⟩

theorem of_cons (h : Tiles before text (chunk :: row)) :
    ∃ a b, text = a ++ b ∧ chunk.Covers before a ∧ Tiles (before ++ a) b row := by
  cases h with
  | cons hc hrest => exact ⟨_, _, rfl, hc, hrest⟩

/-- Every chunk of the row stands for a piece of the text. -/
theorem covers_of_mem (h : Tiles before text row) (hm : chunk ∈ row) :
    ∃ a piece b, text = a ++ piece ++ b ∧ chunk.Covers (before ++ a) piece := by
  obtain ⟨left, right, rfl⟩ := List.append_of_mem hm
  obtain ⟨a, rest, rfl, -, hr⟩ := h.of_append
  obtain ⟨piece, b, rfl, hc, -⟩ := hr.of_cons
  exact ⟨a, piece, b, by rw [List.append_assoc], hc⟩

theorem start_lt_stop (h : Tiles before text row) (hm : chunk ∈ row) :
    chunk.start < chunk.stop := by
  obtain ⟨_, _, _, _, hc⟩ := h.covers_of_mem hm
  exact hc.start_lt_stop

theorem le_start (h : Tiles before text row) (hm : chunk ∈ row) :
    utf8Length before ≤ chunk.start := by
  obtain ⟨a, _, _, _, hc⟩ := h.covers_of_mem hm
  rw [hc.start_eq, utf8Length_append]
  omega

theorem lt_stop (h : Tiles before text row) (hm : chunk ∈ row) :
    utf8Length before < chunk.stop :=
  Nat.lt_of_le_of_lt (h.le_start hm) (h.start_lt_stop hm)

theorem stop_le (h : Tiles before text row) (hm : chunk ∈ row) :
    chunk.stop ≤ utf8Length (before ++ text) := by
  obtain ⟨a, piece, b, rfl, hc⟩ := h.covers_of_mem hm
  simp only [hc.stop_eq, utf8Length_append]
  omega

theorem eq_nil_iff (h : Tiles before text row) : row = [] ↔ text = [] := by
  cases h with
  | nil => simp
  | cons hc _ => simp [hc.ne_nil]

end Tiles

/-! ## Finding an edge

The tests by which the buffer searches its row hold of the chunks up to an edge and of
no chunk behind it, so that a search for the edge stops exactly there. -/

section Edge

variable {before a b : List Char} {left right : List Chunk} {offset : Nat}

/-- Up to an edge all chunks end there or before, and behind it none does. -/
theorem stop_le_iff_edge (hl : Tiles before a left) (hr : Tiles (before ++ a) b right)
    (ho : offset = utf8Length (before ++ a)) :
    (∀ chunk ∈ left, decide (chunk.stop ≤ offset) = true) ∧
      ∀ chunk ∈ right, decide (chunk.stop ≤ offset) = false := by
  subst ho
  refine ⟨fun chunk hm => decide_eq_true (hl.stop_le hm), fun chunk hm => ?_⟩
  exact decide_eq_false (Nat.not_le.mpr (hr.lt_stop hm))

/-- Up to an edge all chunks begin before it, and behind it none does. -/
theorem start_lt_iff_edge (hl : Tiles before a left) (hr : Tiles (before ++ a) b right)
    (ho : offset = utf8Length (before ++ a)) :
    (∀ chunk ∈ left, decide (chunk.start < offset) = true) ∧
      ∀ chunk ∈ right, decide (chunk.start < offset) = false := by
  subst ho
  refine ⟨fun chunk hm => ?_, fun chunk hm => ?_⟩
  · have h1 := hl.stop_le hm
    have h2 := hl.start_lt_stop hm
    exact decide_eq_true (by omega)
  · have h1 := hr.le_start hm
    exact decide_eq_false (by omega)

/-- The chunks that end at an offset or before it come first, wherever it lies. -/
theorem Tiles.stop_le_first {before text : List Char} {row : List Chunk}
    (h : Tiles before text row) (offset : Nat) :
    ∃ left right, row = left ++ right ∧
      (∀ chunk ∈ left, decide (chunk.stop ≤ offset) = true) ∧
        ∀ chunk ∈ right, decide (chunk.stop ≤ offset) = false := by
  induction h with
  | nil before => exact ⟨[], [], rfl, by simp, by simp⟩
  | @cons before piece behind chunk rest hc hrest ih =>
      by_cases hle : chunk.stop ≤ offset
      · obtain ⟨left, right, rfl, hl, hr⟩ := ih
        exact ⟨chunk :: left, right, rfl, by simpa [hle] using hl, hr⟩
      · refine ⟨[], chunk :: rest, rfl, by simp, fun other hm => ?_⟩
        rcases List.mem_cons.mp hm with rfl | hm
        · exact decide_eq_false hle
        · have hlt := hrest.lt_stop hm
          rw [← hc.stop_eq] at hlt
          exact decide_eq_false (by omega)

end Edge

/-! ## What an offset meets -/

/-- How the offset between two parts of a text lies in a row: on an edge, or inside
a chunk that stands for the end of the one part and the beginning of the other. -/
inductive Located (before : List Char) : List Char → List Char → List Chunk → Prop
  | edge {a b : List Char} {left right : List Chunk} :
      Tiles before a left → Tiles (before ++ a) b right →
      Located before a b (left ++ right)
  | inside {a b p q : List Char} {chunk : Chunk} {left right : List Chunk} :
      p ≠ [] → q ≠ [] → Tiles before a left → chunk.Covers (before ++ a) (p ++ q) →
      Tiles (before ++ a ++ (p ++ q)) b right →
      Located before (a ++ p) (q ++ b) (left ++ chunk :: right)

theorem Located.cons {before piece a b : List Char} {chunk : Chunk} {rest : List Chunk}
    (hc : chunk.Covers before piece) (h : Located (before ++ piece) a b rest) :
    Located before (piece ++ a) b (chunk :: rest) := by
  cases h with
  | edge hl hr => exact .edge (.cons hc hl) (by simpa using hr)
  | inside hp hq hl hin hr =>
      rw [← List.append_assoc]
      exact .inside hp hq (.cons hc hl) (by simpa using hin) (by simpa using hr)

/-- An offset that cuts the text of a row between characters meets one or the other. -/
theorem Tiles.located {before text : List Char} {row : List Chunk}
    (h : Tiles before text row) :
    ∀ {a b : List Char}, text = a ++ b → Located before a b row := by
  induction h with
  | nil before =>
      intro a b hab
      obtain ⟨rfl, rfl⟩ := List.append_eq_nil_iff.mp hab.symm
      exact @Located.edge before [] [] [] [] (.nil _) (.nil _)
  | @cons before piece behind chunk rest hc hrest ih =>
      intro a b hab
      rcases List.append_eq_append_iff.mp hab with ⟨m, rfl, hb⟩ | ⟨q, rfl, rfl⟩
      · exact .cons hc (ih hb)
      · by_cases ha : a = []
        · subst ha
          exact @Located.edge before [] _ [] _ (.nil _)
            (by simpa using Tiles.cons hc hrest)
        · by_cases hq : q = []
          · subst hq
            have hl : Tiles before a [chunk] := .singleton (by simpa using hc)
            exact .edge hl (by simpa using hrest)
          · exact @Located.inside before [] _ _ _ _ [] _ ha hq (.nil _)
              (by simpa using hc)
              (by simpa using hrest)

/-- A chunk that was replaced lies around the offset. -/
def Blocked (offset : Nat) (row : List Chunk) : Prop :=
  ∃ chunk ∈ row, chunk.surrounds offset = true ∧ chunk.isReplaced = true

theorem Chunk.surrounds_iff {chunk : Chunk} {offset : Nat} :
    chunk.surrounds offset = true ↔ chunk.start < offset ∧ offset < chunk.stop := by
  simp [Chunk.surrounds]

theorem Chunk.not_surrounds_iff {chunk : Chunk} {offset : Nat} :
    chunk.surrounds offset = false ↔ ¬ (chunk.start < offset ∧ offset < chunk.stop) := by
  rw [Bool.eq_false_iff, ne_eq, Chunk.surrounds_iff]

theorem not_surrounds_of_edge {before a b : List Char} {left right : List Chunk}
    (hl : Tiles before a left) (hr : Tiles (before ++ a) b right) {chunk : Chunk}
    (hm : chunk ∈ left ++ right) :
    chunk.surrounds (utf8Length (before ++ a)) = false := by
  rw [Chunk.not_surrounds_iff]
  rcases List.mem_append.mp hm with hm | hm
  · have := hl.stop_le hm
    omega
  · have := hr.le_start hm
    omega

theorem not_blocked_edge {before a b : List Char} {left right : List Chunk}
    (hl : Tiles before a left) (hr : Tiles (before ++ a) b right) :
    ¬ Blocked (utf8Length (before ++ a)) (left ++ right) := by
  rintro ⟨chunk, hm, hs, -⟩
  rw [not_surrounds_of_edge hl hr hm] at hs
  exact Bool.noConfusion hs

section Inside

variable {before a b p q : List Char} {chunk : Chunk} {left right : List Chunk}

theorem surrounds_inside (hp : p ≠ []) (hq : q ≠ [])
    (hc : chunk.Covers (before ++ a) (p ++ q)) :
    chunk.surrounds (utf8Length (before ++ (a ++ p))) = true := by
  have h1 := utf8Length_pos hp
  have h2 := utf8Length_pos hq
  rw [Chunk.surrounds_iff, hc.start_eq, hc.stop_eq]
  simp only [utf8Length_append]
  omega

/-- The chunk around an offset is the only one that can be in the way. -/
theorem blocked_inside (hp : p ≠ []) (hq : q ≠ []) (hl : Tiles before a left)
    (hc : chunk.Covers (before ++ a) (p ++ q))
    (hr : Tiles (before ++ a ++ (p ++ q)) b right) :
    Blocked (utf8Length (before ++ (a ++ p))) (left ++ chunk :: right) ↔
      chunk.isReplaced = true := by
  constructor
  · rintro ⟨other, hm, hs, hrep⟩
    rw [Chunk.surrounds_iff] at hs
    rcases List.mem_append.mp hm with hm | hm
    · have := hl.stop_le hm
      simp only [utf8Length_append] at this hs
      omega
    · rcases List.mem_cons.mp hm with rfl | hm
      · exact hrep
      · have := hr.le_start hm
        simp only [utf8Length_append] at this hs
        omega
  · intro hrep
    exact ⟨chunk, by simp, surrounds_inside hp hq hc, hrep⟩

end Inside

end ParseView.Edit
