import Mathlib.Data.List.Basic
import ParseView.Proofs.EditHistory
import ParseView.Proofs.TextPlace

/-!
# A range edit treats every chunk by itself

The buffer finds the chunks of a range by searching the row, cuts it in two places and
changes what lies between them. None of this is needed to say what comes out: a cut
makes one or two chunks of each chunk (`Chunk.cutAt`), and what is left of a chunk is
changed or not by where it begins (`Chunk.replaceWithin`). So the row that a range edit
leaves is a `flatMap` and a `map` over the row it began with, and how two edits act on
each other is a question about one chunk.

`Buffer.apply_range` says that the program does this, and that it refuses the edit for
the first chunk in its way (`obstacle?`), the same one with the same message in every
row that has it.
-/

namespace ParseView.Edit

open Text (utf8Length utf8Length_append)

/-! ## One chunk -/

/-- The text of a source between two offsets. -/
def sliceAt (source : List Char) (start stop : Nat) : List Char :=
  takeBytes (stop - start) (dropBytes start source)

theorem sliceAt_append (a b c : List Char) :
    sliceAt (a ++ b ++ c) (utf8Length a) (utf8Length (a ++ b)) = b := by
  have hlength : utf8Length (a ++ b) - utf8Length a = utf8Length b := by
    rw [utf8Length_append]
    omega
  rw [sliceAt, hlength, List.append_assoc, dropBytes_append, takeBytes_append]

/-- What a cut at an offset makes of a chunk. -/
def Chunk.cutAt (source : List Char) (offset : Nat) (chunk : Chunk) : List Chunk :=
  if chunk.surrounds offset then
    [chunk.firstHalf offset (sliceAt source chunk.start offset),
      chunk.secondHalf offset (sliceAt source offset chunk.stop)]
  else [chunk]

/-- What an edit of a range makes of a chunk that goes on behind neither of its ends. -/
def Chunk.replaceWithin (start stop : Nat) (content : List Char) (keepInserts : Bool)
    (chunk : Chunk) : Chunk :=
  if start ≤ chunk.start ∧ chunk.start < stop then
    if chunk.start = start then chunk.edit content keepInserts else chunk.edit [] false
  else chunk

section Chunk

variable {source : List Char} {chunk piece : Chunk} {offset other start stop : Nat}
  {content : List Char} {keep : Bool}

theorem Chunk.cutAt_of_not_surrounds (h : chunk.surrounds offset = false) :
    chunk.cutAt source offset = [chunk] := by
  rw [cutAt, h]
  rfl

theorem Chunk.cutAt_of_surrounds (h : chunk.surrounds offset = true) :
    chunk.cutAt source offset =
      [chunk.firstHalf offset (sliceAt source chunk.start offset),
        chunk.secondHalf offset (sliceAt source offset chunk.stop)] :=
  if_pos h

/-- The pieces of a chunk lie in it, and none of them goes on behind the cut. -/
theorem Chunk.bounds_of_mem_cutAt (h : piece ∈ chunk.cutAt source offset) :
    chunk.start ≤ piece.start ∧ piece.stop ≤ chunk.stop ∧
      piece.surrounds offset = false := by
  cases hs : chunk.surrounds offset with
  | false =>
      rw [cutAt_of_not_surrounds hs, List.mem_singleton] at h
      subst h
      exact ⟨Nat.le_refl _, Nat.le_refl _, hs⟩
  | true =>
      rw [cutAt_of_surrounds hs] at h
      rw [Chunk.surrounds_iff] at hs
      rw [Chunk.not_surrounds_iff]
      simp only [List.mem_cons, List.not_mem_nil, or_false] at h
      rcases h with rfl | rfl <;> simp only [firstHalf, secondHalf] <;> omega

theorem Chunk.not_surrounds_of_mem_cutAt (h : piece ∈ chunk.cutAt source offset)
    (ho : chunk.surrounds other = false) : piece.surrounds other = false := by
  have hb := bounds_of_mem_cutAt h
  rw [Chunk.not_surrounds_iff] at ho ⊢
  omega

/-- Two cuts in one chunk make the same three pieces, whichever comes first. -/
theorem Chunk.cutAt_cutAt_of_lt (hlt : offset < other)
    (h1 : chunk.surrounds offset = true) (h2 : chunk.surrounds other = true) :
    (chunk.cutAt source offset).flatMap (cutAt source other) =
      (chunk.cutAt source other).flatMap (cutAt source offset) := by
  rw [cutAt_of_surrounds h1, cutAt_of_surrounds h2]
  rw [Chunk.surrounds_iff] at h1 h2
  have hfirst : (chunk.firstHalf offset (sliceAt source chunk.start offset)).surrounds
      other = false := by
    rw [Chunk.not_surrounds_iff]
    simp only [firstHalf]
    omega
  have hsecond : (chunk.secondHalf offset (sliceAt source offset chunk.stop)).surrounds
      other = true := by
    rw [Chunk.surrounds_iff]
    exact ⟨hlt, h2.2⟩
  have hfirst' : (chunk.firstHalf other (sliceAt source chunk.start other)).surrounds
      offset = true := by
    rw [Chunk.surrounds_iff]
    exact ⟨h1.1, hlt⟩
  have hsecond' : (chunk.secondHalf other (sliceAt source other chunk.stop)).surrounds
      offset = false := by
    rw [Chunk.not_surrounds_iff]
    simp only [secondHalf]
    omega
  simp only [List.flatMap_cons, List.flatMap_nil, List.append_nil,
    cutAt_of_not_surrounds hfirst, cutAt_of_surrounds hsecond, cutAt_of_surrounds hfirst',
    cutAt_of_not_surrounds hsecond']
  cases he : chunk.isEdited <;> simp [firstHalf, secondHalf, he]

theorem Chunk.cutAt_comm (source : List Char) (offset other : Nat) (chunk : Chunk) :
    (chunk.cutAt source offset).flatMap (cutAt source other) =
      (chunk.cutAt source other).flatMap (cutAt source offset) := by
  cases h1 : chunk.surrounds offset with
  | false =>
      have hpieces : ∀ piece ∈ chunk.cutAt source other,
          piece.cutAt source offset = [piece] := fun piece hm =>
        cutAt_of_not_surrounds (not_surrounds_of_mem_cutAt hm h1)
      rw [cutAt_of_not_surrounds h1, List.flatMap_congr hpieces]
      simp
  | true =>
      cases h2 : chunk.surrounds other with
      | false =>
          have hpieces : ∀ piece ∈ chunk.cutAt source offset,
              piece.cutAt source other = [piece] := fun piece hm =>
            cutAt_of_not_surrounds (not_surrounds_of_mem_cutAt hm h2)
          rw [cutAt_of_not_surrounds h2, List.flatMap_congr hpieces]
          simp
      | true =>
          rcases Nat.lt_trichotomy offset other with hlt | rfl | hlt
          · exact cutAt_cutAt_of_lt hlt h1 h2
          · rfl
          · exact (cutAt_cutAt_of_lt hlt h2 h1).symm

@[simp] theorem Chunk.replaceWithin_start :
    (chunk.replaceWithin start stop content keep).start = chunk.start := by
  rw [replaceWithin]
  split
  · split <;> exact Chunk.edit_start
  · rfl

@[simp] theorem Chunk.replaceWithin_stop :
    (chunk.replaceWithin start stop content keep).stop = chunk.stop := by
  rw [replaceWithin]
  split
  · split <;> exact Chunk.edit_stop
  · rfl

@[simp] theorem Chunk.surrounds_replaceWithin :
    (chunk.replaceWithin start stop content keep).surrounds offset =
      chunk.surrounds offset := by
  rw [surrounds, surrounds, replaceWithin_start, replaceWithin_stop]

theorem Chunk.replaceWithin_of_outside (h : ¬ (start ≤ chunk.start ∧ chunk.start < stop)) :
    chunk.replaceWithin start stop content keep = chunk :=
  if_neg h

/-- A chunk in a range goes on behind no offset outside of the range. -/
theorem Chunk.not_surrounds_of_within (h : chunk.surrounds stop = false)
    (hin : start ≤ chunk.start ∧ chunk.start < stop) (ho : offset ≤ start ∨ stop ≤ offset) :
    chunk.surrounds offset = false := by
  rw [Chunk.not_surrounds_iff] at h ⊢
  omega

/-- To cut outside of a range is the same before and behind its replacement. -/
theorem Chunk.cutAt_replaceWithin (h1 : chunk.surrounds start = false)
    (h2 : chunk.surrounds stop = false) (ho : offset ≤ start ∨ stop ≤ offset) :
    (chunk.replaceWithin start stop content keep).cutAt source offset =
      (chunk.cutAt source offset).map (replaceWithin start stop content keep) := by
  by_cases hin : start ≤ chunk.start ∧ chunk.start < stop
  · have hs := not_surrounds_of_within h2 hin ho
    rw [cutAt_of_not_surrounds hs, cutAt_of_not_surrounds (by simpa using hs)]
    rfl
  · rw [replaceWithin_of_outside hin]
    cases hs : chunk.surrounds offset with
    | false =>
        rw [cutAt_of_not_surrounds hs, List.map_singleton, replaceWithin_of_outside hin]
    | true =>
        rw [cutAt_of_surrounds hs]
        rw [Chunk.not_surrounds_iff] at h1
        rw [Chunk.surrounds_iff] at hs
        have hfirst : (chunk.firstHalf offset (sliceAt source chunk.start offset)).replaceWithin
            start stop content keep = _ := replaceWithin_of_outside hin
        have hsecond : (chunk.secondHalf offset (sliceAt source offset chunk.stop)).replaceWithin
            start stop content keep = _ := replaceWithin_of_outside fun hrange => by
          simp only [secondHalf] at hrange
          omega
        rw [List.map_cons, List.map_singleton, hfirst, hsecond]

/-- No chunk begins in two ranges one behind the other. -/
theorem Chunk.replaceWithin_comm {start' stop' : Nat} {content' : List Char} {keep' : Bool}
    (hle : stop ≤ start') :
    (chunk.replaceWithin start stop content keep).replaceWithin start' stop' content' keep' =
      (chunk.replaceWithin start' stop' content' keep').replaceWithin start stop content
        keep := by
  by_cases hin : start ≤ chunk.start ∧ chunk.start < stop
  · have hout : ¬ (start' ≤ chunk.start ∧ chunk.start < stop') := by omega
    rw [replaceWithin_of_outside hout, replaceWithin_of_outside (by simpa using hout)]
  · have hin' : ¬ (start ≤ (chunk.replaceWithin start' stop' content' keep').start ∧
        (chunk.replaceWithin start' stop' content' keep').start < stop) := by
      rwa [replaceWithin_start]
    rw [replaceWithin_of_outside hin, replaceWithin_of_outside hin']

theorem Chunk.edit_edit {content' : List Char} :
    (chunk.edit content keep).edit content' false = chunk.edit content' false := by
  cases keep <;> rfl

/-- Of two texts put in the place of one range only the second one is left. -/
theorem Chunk.replaceWithin_replaceWithin {content' : List Char} :
    (chunk.replaceWithin start stop content keep).replaceWithin start stop content' false =
      chunk.replaceWithin start stop content' false := by
  by_cases hin : start ≤ chunk.start ∧ chunk.start < stop
  · by_cases hfirst : chunk.start = start
    · simp only [replaceWithin, if_pos hin, if_pos hfirst, Chunk.edit_start, Chunk.edit_edit]
    · simp only [replaceWithin, if_pos hin, if_neg hfirst, Chunk.edit_start, Chunk.edit_edit]
  · rw [replaceWithin_of_outside hin]

end Chunk

/-! ## A row -/

/-- The row that a cut at an offset leaves. -/
def cutChunks (source : List Char) (offset : Nat) (row : List Chunk) : List Chunk :=
  row.flatMap (Chunk.cutAt source offset)

/-- The row that an edit of a range leaves. -/
def editRange (source : List Char) (start stop : Nat) (content : List Char)
    (keepInserts : Bool) (row : List Chunk) : List Chunk :=
  (cutChunks source stop (cutChunks source start row)).map
    (Chunk.replaceWithin start stop content keepInserts)

/-- No chunk of the row goes on behind the offset. -/
def IsEdge (offset : Nat) (row : List Chunk) : Prop :=
  ∀ chunk ∈ row, chunk.surrounds offset = false

section Row

variable {source : List Char} {row : List Chunk} {offset other start stop : Nat}
  {content : List Char} {keep : Bool}

theorem cutChunks_comm (source : List Char) (offset other : Nat) (row : List Chunk) :
    cutChunks source other (cutChunks source offset row) =
      cutChunks source offset (cutChunks source other row) := by
  simp only [cutChunks, List.flatMap_assoc]
  exact List.flatMap_congr fun chunk _ => chunk.cutAt_comm source offset other

theorem isEdge_cutChunks : IsEdge offset (cutChunks source offset row) := by
  intro piece hm
  obtain ⟨chunk, -, hpiece⟩ := List.mem_flatMap.mp hm
  exact (Chunk.bounds_of_mem_cutAt hpiece).2.2

theorem IsEdge.cut (h : IsEdge other row) :
    IsEdge other (cutChunks source offset row) := by
  intro piece hm
  obtain ⟨chunk, hchunk, hpiece⟩ := List.mem_flatMap.mp hm
  exact Chunk.not_surrounds_of_mem_cutAt hpiece (h chunk hchunk)

theorem IsEdge.map_replaceWithin (h : IsEdge other row) :
    IsEdge other (row.map (Chunk.replaceWithin start stop content keep)) := by
  intro chunk hm
  obtain ⟨whole, hwhole, rfl⟩ := List.mem_map.mp hm
  rw [Chunk.surrounds_replaceWithin]
  exact h whole hwhole

/-- A cut at an edge changes nothing. -/
theorem cutChunks_of_isEdge (h : IsEdge offset row) : cutChunks source offset row = row := by
  have hchunk : ∀ chunk ∈ row, chunk.cutAt source offset = [chunk] := fun chunk hm =>
    Chunk.cutAt_of_not_surrounds (h chunk hm)
  rw [cutChunks, List.flatMap_congr hchunk]
  simp

theorem cutChunks_map_replaceWithin (h1 : IsEdge start row) (h2 : IsEdge stop row)
    (ho : offset ≤ start ∨ stop ≤ offset) :
    cutChunks source offset (row.map (Chunk.replaceWithin start stop content keep)) =
      (cutChunks source offset row).map
        (Chunk.replaceWithin start stop content keep) := by
  rw [cutChunks, cutChunks, List.flatMap_map, List.map_flatMap]
  exact List.flatMap_congr fun chunk hm =>
    Chunk.cutAt_replaceWithin (h1 chunk hm) (h2 chunk hm) ho

theorem map_replaceWithin_of_outside
    (h : ∀ chunk ∈ row, ¬ (start ≤ chunk.start ∧ chunk.start < stop)) :
    row.map (Chunk.replaceWithin start stop content keep) = row := by
  have hrow : ∀ chunk ∈ row, chunk.replaceWithin start stop content keep = chunk :=
    fun chunk hm => Chunk.replaceWithin_of_outside (h chunk hm)
  rw [List.map_congr_left hrow, List.map_id']

theorem isEdge_start_editRange : IsEdge start (editRange source start stop content keep row) :=
  isEdge_cutChunks.cut.map_replaceWithin

theorem isEdge_stop_editRange : IsEdge stop (editRange source start stop content keep row) :=
  isEdge_cutChunks.map_replaceWithin

theorem cutChunks_editRange (ho : offset ≤ start ∨ stop ≤ offset) :
    cutChunks source offset (editRange source start stop content keep row) =
      editRange source start stop content keep (cutChunks source offset row) := by
  rw [editRange, cutChunks_map_replaceWithin isEdge_cutChunks.cut isEdge_cutChunks ho,
    cutChunks_comm source stop offset, cutChunks_comm source start offset]
  rfl

/-- Edits of two ranges one behind the other leave the same row in either order. -/
theorem editRange_comm {start' stop' : Nat} {content' : List Char} {keep' : Bool}
    (hle : stop ≤ start') (h : start ≤ stop) (h' : start' ≤ stop') :
    editRange source start' stop' content' keep'
        (editRange source start stop content keep row) =
      editRange source start stop content keep
        (editRange source start' stop' content' keep' row) := by
  have hcut : cutChunks source stop' (cutChunks source start'
        (editRange source start stop content keep row)) =
      editRange source start stop content keep
        (cutChunks source stop' (cutChunks source start' row)) := by
    rw [cutChunks_editRange (.inr hle), cutChunks_editRange (.inr (Nat.le_trans hle h'))]
  have hcut' : cutChunks source stop (cutChunks source start
        (editRange source start' stop' content' keep' row)) =
      editRange source start' stop' content' keep'
        (cutChunks source stop (cutChunks source start row)) := by
    rw [cutChunks_editRange (.inl (Nat.le_trans h hle)), cutChunks_editRange (.inl hle)]
  have hcuts : cutChunks source stop (cutChunks source start
        (cutChunks source stop' (cutChunks source start' row))) =
      cutChunks source stop' (cutChunks source start'
        (cutChunks source stop (cutChunks source start row))) := by
    rw [cutChunks_comm source stop' start, cutChunks_comm source start' start,
      cutChunks_comm source stop' stop, cutChunks_comm source start' stop]
  calc editRange source start' stop' content' keep'
        (editRange source start stop content keep row)
      = (editRange source start stop content keep
          (cutChunks source stop' (cutChunks source start' row))).map
            (Chunk.replaceWithin start' stop' content' keep') := by rw [editRange, hcut]
    _ = (editRange source start' stop' content' keep'
          (cutChunks source stop (cutChunks source start row))).map
            (Chunk.replaceWithin start stop content keep) := by
        rw [editRange, editRange, hcuts, List.map_map, List.map_map]
        exact List.map_congr_left fun chunk _ => Chunk.replaceWithin_comm hle
    _ = editRange source start stop content keep
          (editRange source start' stop' content' keep' row) := by
        rw [← hcut']
        rfl

/-- Of two edits of one range only the second one is left. -/
theorem editRange_editRange {content' : List Char} :
    editRange source start stop content' false
        (editRange source start stop content keep row) =
      editRange source start stop content' false row := by
  have hcut : cutChunks source stop (cutChunks source start
        (editRange source start stop content keep row)) =
      editRange source start stop content keep row := by
    rw [cutChunks_of_isEdge isEdge_start_editRange, cutChunks_of_isEdge isEdge_stop_editRange]
  rw [editRange, hcut, editRange, List.map_map, editRange]
  exact List.map_congr_left fun chunk _ => Chunk.replaceWithin_replaceWithin

end Row

/-! ## What is in the way -/

/-- How a chunk refuses to be cut at an offset, if it does. -/
def Chunk.refusal? (offset : Nat) (chunk : Chunk) : Option Refusal :=
  if chunk.surrounds offset && chunk.isReplaced then
    some (.replaced chunk.start chunk.stop offset)
  else none

/-- How a row refuses to be cut at an offset. -/
def obstacle? (offset : Nat) (row : List Chunk) : Option Refusal :=
  row.findSome? (Chunk.refusal? offset)

/-- How a row refuses to be cut at the ends of a range, which are looked at in order. -/
def rangeObstacle? (start stop : Nat) (row : List Chunk) : Option Refusal :=
  (obstacle? start row).or (obstacle? stop row)

section Obstacle

variable {source : List Char} {row left right : List Chunk} {chunk : Chunk}
  {offset other start stop : Nat} {content : List Char} {keep : Bool}

theorem obstacle?_cons :
    obstacle? offset (chunk :: row) = (chunk.refusal? offset).or (obstacle? offset row) := by
  rw [obstacle?, List.findSome?_cons]
  cases chunk.refusal? offset <;> rfl

theorem obstacle?_append :
    obstacle? offset (left ++ right) = (obstacle? offset left).or (obstacle? offset right) :=
  List.findSome?_append

theorem obstacle?_of_isEdge (h : IsEdge offset row) : obstacle? offset row = none := by
  rw [obstacle?, List.findSome?_eq_none_iff]
  intro chunk hm
  rw [Chunk.refusal?, h chunk hm]
  rfl

theorem obstacle?_eq_none_iff : obstacle? offset row = none ↔ ¬ Blocked offset row := by
  rw [obstacle?, List.findSome?_eq_none_iff, Blocked]
  simp [Chunk.refusal?]

/-- A cut that goes through leaves every obstacle to another cut in place. -/
theorem obstacle?_cutChunks (hb : ¬ Blocked other row) :
    obstacle? offset (cutChunks source other row) = obstacle? offset row := by
  induction row with
  | nil => rfl
  | cons chunk rest ih =>
      have hrest := ih fun ⟨c, hm, h⟩ => hb ⟨c, List.mem_cons_of_mem _ hm, h⟩
      have hchunk : obstacle? offset (chunk.cutAt source other) = chunk.refusal? offset := by
        cases hs : chunk.surrounds other with
        | false =>
            rw [Chunk.cutAt_of_not_surrounds hs, obstacle?_cons]
            exact Option.or_none
        | true =>
            -- Neither the chunk nor its halves are replaced.
            have hrep : chunk.isReplaced = false := by
              simpa using fun h => hb ⟨chunk, List.mem_cons_self, hs, h⟩
            have hfirst (p : List Char) : (chunk.firstHalf other p).isReplaced = false := by
              cases he : chunk.isEdited <;> simp [Chunk.isReplaced, Chunk.firstHalf, he]
            rw [Chunk.cutAt_of_surrounds hs, obstacle?_cons, obstacle?_cons]
            simp [Chunk.refusal?, hrep, hfirst, Chunk.secondHalf_isReplaced, obstacle?]
      rw [obstacle?_cons, ← hrest, ← hchunk]
      exact obstacle?_append

theorem Chunk.refusal?_replaceWithin (h : chunk.surrounds stop = false)
    (ho : offset ≤ start ∨ stop ≤ offset) :
    (chunk.replaceWithin start stop content keep).refusal? offset = chunk.refusal? offset := by
  by_cases hin : start ≤ chunk.start ∧ chunk.start < stop
  · have hs := not_surrounds_of_within h hin ho
    simp [refusal?, hs]
  · rw [replaceWithin_of_outside hin]

/-- What is put in the place of a range is no obstacle outside of it. -/
theorem obstacle?_map_replaceWithin (h : IsEdge stop row)
    (ho : offset ≤ start ∨ stop ≤ offset) :
    obstacle? offset (row.map (Chunk.replaceWithin start stop content keep)) =
      obstacle? offset row := by
  induction row with
  | nil => rfl
  | cons chunk rest ih =>
      have hrest := ih fun c hm => h c (List.mem_cons_of_mem _ hm)
      rw [List.map_cons, obstacle?_cons, obstacle?_cons, hrest,
        Chunk.refusal?_replaceWithin (h chunk List.mem_cons_self) ho]

theorem obstacle?_editRange (h1 : ¬ Blocked start row) (h2 : ¬ Blocked stop row)
    (ho : offset ≤ start ∨ stop ≤ offset) :
    obstacle? offset (editRange source start stop content keep row) =
      obstacle? offset row := by
  have hstop : ¬ Blocked stop (cutChunks source start row) := by
    rw [← obstacle?_eq_none_iff, obstacle?_cutChunks h1, obstacle?_eq_none_iff]
    exact h2
  rw [editRange, obstacle?_map_replaceWithin isEdge_cutChunks ho,
    obstacle?_cutChunks hstop, obstacle?_cutChunks h1]

end Obstacle

/-! ## What the program does -/

section Program

variable {source before text a b m c : List Char} {row left right inside : List Chunk}
  {offset start stop : Nat} {content : List Char} {keep : Bool}

theorem Tiles.isEdge_behind (h : Tiles before text row)
    (ho : utf8Length (before ++ text) ≤ offset) : IsEdge offset row := by
  intro chunk hm
  have hle := h.stop_le hm
  rw [Chunk.not_surrounds_iff]
  omega

theorem Tiles.isEdge_before (h : Tiles before text row) (ho : offset ≤ utf8Length before) :
    IsEdge offset row := by
  intro chunk hm
  have hle := h.le_start hm
  rw [Chunk.not_surrounds_iff]
  omega

theorem cutChunks_append :
    cutChunks source offset (left ++ right) =
      cutChunks source offset left ++ cutChunks source offset right :=
  List.flatMap_append

/-- A half that was never edited shows the piece it covers. -/
theorem Chunk.halves_content {p q first second : List Char} {chunk : Chunk}
    (hf : (chunk.firstHalf offset p).Covers before first)
    (hs : (chunk.secondHalf offset q).Covers (before ++ first) second)
    (he : chunk.isEdited = false) : p = first ∧ q = second :=
  ⟨by simpa [firstHalf, he] using hf.content_eq he,
    by simpa [secondHalf, he] using hs.content_eq he⟩

theorem Chunk.covers_of_halves {p q first second : List Char} {chunk : Chunk}
    (hf : (chunk.firstHalf offset p).Covers before first)
    (hs : (chunk.secondHalf offset q).Covers (before ++ first) second)
    (hcontent : chunk.isEdited = false → chunk.content = p ++ q) :
    chunk.Covers before (first ++ second) where
  ne_nil := by simp [hf.ne_nil]
  start_eq := hf.start_eq
  stop_eq := by
    rw [← List.append_assoc]
    exact hs.stop_eq
  content_eq he := by
    obtain ⟨rfl, rfl⟩ := halves_content hf hs he
    exact hcontent he

/-- A row that was cut stood for the texts of its two parts. -/
theorem Cuts.tiles (h : Cuts offset row left right) (hl : Tiles before a left)
    (hr : Tiles (before ++ a) b right) : Tiles before (a ++ b) row := by
  cases h with
  | edge => exact hl.append hr
  | @inside left right chunk p q hsur hrep hcontent =>
      obtain ⟨a', rest, rfl, hl', hp⟩ := hl.of_append
      obtain ⟨first, rest', rfl, hfirst, hnil⟩ := hp.of_cons
      obtain rfl : rest' = [] := by simpa using hnil.eq_nil_iff
      obtain ⟨second, b', rfl, hsecond, hr'⟩ := hr.of_cons
      have hchunk : chunk.Covers (before ++ a') (first ++ second) :=
        Chunk.covers_of_halves hfirst (by simpa using hsecond) hcontent
      simpa using hl'.append (.cons hchunk (by simpa using hr'))

/-- What the two parts of a row that was cut are made of. -/
theorem Cuts.eq_cutChunks (h : Cuts offset row left right) (hl : Tiles before a left)
    (hr : Tiles (before ++ a) b right) (hs : before ++ a ++ b <+: source)
    (ho : offset = utf8Length (before ++ a)) :
    cutChunks source offset row = left ++ right := by
  obtain ⟨after, rfl⟩ := hs
  subst ho
  cases h with
  | edge => exact cutChunks_of_isEdge fun chunk hm => not_surrounds_of_edge hl hr hm
  | @inside left right chunk p q hsur hrep hcontent =>
      obtain ⟨a', rest, rfl, hl', hp⟩ := hl.of_append
      obtain ⟨first, rest', rfl, hfirst, hnil⟩ := hp.of_cons
      obtain rfl : rest' = [] := by simpa using hnil.eq_nil_iff
      obtain ⟨second, b', rfl, hsecond, hr'⟩ := hr.of_cons
      rw [List.append_nil] at hsur hsecond hr' ⊢
      generalize hs : before ++ (a' ++ first) ++ (second ++ b') ++ after = source
      have hstart : sliceAt source chunk.start (utf8Length (before ++ (a' ++ first))) = first := by
        have h := sliceAt_append (before ++ a') first (second ++ b' ++ after)
        rw [← hs, show chunk.start = utf8Length (before ++ a') from hfirst.start_eq]
        simpa using h
      have hstop : sliceAt source (utf8Length (before ++ (a' ++ first))) chunk.stop = second := by
        have h := sliceAt_append (before ++ (a' ++ first)) second (b' ++ after)
        rw [← hs, show chunk.stop = _ from hsecond.stop_eq]
        simpa using h
      have hleft : IsEdge (utf8Length (before ++ (a' ++ first))) left :=
        hl'.isEdge_behind (by simp only [utf8Length_append]; omega)
      have hright : IsEdge (utf8Length (before ++ (a' ++ first))) right :=
        hr'.isEdge_before (by simp only [utf8Length_append]; omega)
      have hchunk : chunk.cutAt source (utf8Length (before ++ (a' ++ first))) =
          [chunk.firstHalf (utf8Length (before ++ (a' ++ first))) p,
            chunk.secondHalf (utf8Length (before ++ (a' ++ first))) q] := by
        rw [Chunk.cutAt_of_surrounds hsur, hstart, hstop]
        cases he : chunk.isEdited with
        | true => simp [Chunk.firstHalf, Chunk.secondHalf, he]
        | false =>
            obtain ⟨rfl, rfl⟩ := Chunk.halves_content hfirst (by simpa using hsecond) he
            rfl
      rw [cutChunks_append, cutChunks_of_isEdge hleft, List.append_assoc]
      show left ++ (chunk.cutAt source _ ++ cutChunks source _ right) = _
      rw [hchunk, cutChunks_of_isEdge hright]
      rfl

/-- In a row in three parts the middle one is changed. -/
theorem map_replaceWithin_eq (hl : Tiles [] a left) (hi : Tiles a m inside)
    (hr : Tiles (a ++ m) c right) (h1 : start = utf8Length a) (h2 : stop = utf8Length (a ++ m)) :
    (left ++ (inside ++ right)).map (Chunk.replaceWithin start stop content keep) =
      left ++ replaceRow content keep inside ++ right := by
  subst h1 h2
  have hleft : ∀ chunk ∈ left,
      ¬ (utf8Length a ≤ chunk.start ∧ chunk.start < utf8Length (a ++ m)) := fun chunk hm => by
    have hle := hl.stop_le hm
    have hlt := hl.start_lt_stop hm
    rw [List.nil_append] at hle
    omega
  have hright : ∀ chunk ∈ right,
      ¬ (utf8Length a ≤ chunk.start ∧ chunk.start < utf8Length (a ++ m)) := fun chunk hm => by
    have hle := hr.le_start hm
    omega
  rw [List.map_append, List.map_append, map_replaceWithin_of_outside hleft,
    map_replaceWithin_of_outside hright, List.append_assoc]
  congr 2
  cases hi with
  | nil => rfl
  | @cons _ piece behind chunk rest hc hrest =>
      have hstart := hc.start_eq
      have hlt := hc.start_lt_stop
      have hle := (Tiles.cons hc hrest).stop_le List.mem_cons_self
      rw [List.map_cons, replaceRow, Chunk.replaceWithin, if_pos (by omega), if_pos hstart]
      congr 1
      refine List.map_congr_left fun other hm => ?_
      have hbehind := hrest.le_start hm
      have hother := hrest.start_lt_stop hm
      have hend := hrest.stop_le hm
      rw [← hc.stop_eq] at hbehind
      rw [List.append_assoc] at hend
      rw [Chunk.replaceWithin, if_pos (by omega), if_neg (by omega)]

/-- The cuts of a range leave three parts, told apart by where they lie. -/
theorem Cuts.eq_cutChunks_cutChunks {rest : List Chunk} (hc1 : Cuts start row left rest)
    (hc2 : Cuts stop rest inside right) (hl : Tiles [] a left) (hi : Tiles a m inside)
    (hr : Tiles (a ++ m) c right) (hs : source = a ++ (m ++ c)) (h1 : start = utf8Length a)
    (h2 : stop = utf8Length (a ++ m)) :
    cutChunks source stop (cutChunks source start row) = left ++ (inside ++ right) := by
  have hrest : Tiles a (m ++ c) rest := hc2.tiles hi hr
  have hstart : cutChunks source start row = left ++ rest :=
    hc1.eq_cutChunks hl hrest (by simp [hs]) h1
  have hstop : cutChunks source stop rest = inside ++ right :=
    hc2.eq_cutChunks hi hr (by simp [hs]) h2
  have hleft : IsEdge stop left :=
    hl.isEdge_behind (by rw [h2, List.nil_append, utf8Length_append]; omega)
  rw [hstart, cutChunks_append, cutChunks_of_isEdge hleft, hstop]

end Program

/-! ### Edits of a range -/

theorem Operation.range?_of_left {operation : Operation} {insert : Nat × (List Char → List Char)}
    (h : operation.leftInsert? = some insert) : operation.range? = none := by
  cases operation <;> simp_all [leftInsert?, range?]

theorem Operation.range?_of_right {operation : Operation} {insert : Nat × (List Char → List Char)}
    (h : operation.rightInsert? = some insert) : operation.range? = none := by
  cases operation <;> simp_all [rightInsert?, range?]

section Range

variable {buffer next : Buffer} {operation : Operation} {start stop offset : Nat}
  {content : List Char} {keep : Bool}

/-- The row that an accepted edit of a range leaves. -/
theorem Accepted.range_eq (h : Accepted buffer operation next)
    (hop : operation.range? = some (start, stop, content, keep)) (hlt : start < stop) :
    next = { buffer with
      chunks := editRange buffer.source start stop content keep buffer.chunks } := by
  cases h with
  | append | prepend => cases hop
  | left hleft => exact nomatch (Operation.range?_of_left hleft).symm.trans hop
  | right hright => exact nomatch (Operation.range?_of_right hright).symm.trans hop
  | nothing offset =>
      cases hop
      exact absurd hlt (Nat.lt_irrefl _)
  | range hrange _ hs h1 h2 hc1 hc2 hl hi hr =>
      cases hrange.symm.trans hop
      rw [editRange, hc1.eq_cutChunks_cutChunks hc2 hl hi hr hs h1 h2,
        map_replaceWithin_eq hl hi hr h1 h2]

/-- What an edit of a range does behind its checks. -/
theorem Operation.editing_of_range (hop : operation.range? = some (start, stop, content, keep))
    (hne : start ≠ stop) :
    operation.editing =
      Editing.checkRange start stop >>= fun _ =>
        Editing.replace start stop content keep := by
  cases operation with
  | overwrite | update =>
      cases hop
      simp only [editing, Editing.overwrite, if_neg hne]
  | remove =>
      cases hop
      simp only [editing, Editing.remove, ne_eq, hne, not_false_eq_true, if_true]
  | _ => cases hop

/-- What is looked at before a cut is what `obstacle?` finds in the row. -/
theorem toCut?_obstacle {before a b : List Char} {row : List Chunk}
    (ht : Tiles before (a ++ b) row) (ho : offset = utf8Length (before ++ a)) :
    ((∃ place, toCut? offset row = .ok place) ∧ obstacle? offset row = none) ∨
      ∃ refusal, toCut? offset row = .error refusal ∧ obstacle? offset row = some refusal := by
  subst ho
  cases ht.located rfl with
  | edge hl hr =>
      exact .inl ⟨⟨_, toCut?_edge hl hr⟩,
        obstacle?_of_isEdge fun chunk hm => not_surrounds_of_edge hl hr hm⟩
  | @inside a b p q chunk left right hp hq hl hc hr =>
      have hs := surrounds_inside hp hq hc
      have hleft : IsEdge (utf8Length (before ++ (a ++ p))) left :=
        hl.isEdge_behind (by simp only [utf8Length_append]; omega)
      have hright : IsEdge (utf8Length (before ++ (a ++ p))) right :=
        hr.isEdge_before (by simp only [utf8Length_append]; omega)
      rw [toCut?_inside hp hq hl hc hr, obstacle?_append, obstacle?_cons,
        obstacle?_of_isEdge hleft, obstacle?_of_isEdge hright, Chunk.refusal?, hs]
      cases chunk.isReplaced with
      | true => exact .inr ⟨_, rfl, rfl⟩
      | false => exact .inl ⟨⟨_, rfl⟩, rfl⟩

theorem rangeObstacle?_eq_none_iff :
    rangeObstacle? start stop buffer.chunks = none ↔ ¬ buffer.BlockedRange start stop := by
  rw [rangeObstacle?, Option.or_eq_none_iff, obstacle?_eq_none_iff, obstacle?_eq_none_iff,
    Buffer.BlockedRange, not_or]

/-- A range that is not empty is refused where it is invalid or blocked. -/
theorem Operation.refused_of_range (hop : operation.range? = some (start, stop, content, keep))
    (hne : start ≠ stop) :
    operation.Refused buffer ↔
      buffer.InvalidRange start stop ∨ buffer.BlockedRange start stop := by
  cases operation with
  | overwrite | update | remove =>
      cases hop
      simp [Refused, hne]
  | _ => cases hop

theorem Editing.checkCut_eq {a b : List Char} (ht : Tiles [] (a ++ b) buffer.chunks)
    (ho : offset = utf8Length a) :
    (checkCut offset).run buffer =
      match obstacle? offset buffer.chunks with
      | some refusal => .error refusal buffer
      | none => .ok () buffer := by
  rw [checkCut_run]
  rcases toCut?_obstacle ht ho with ⟨⟨place, hplace⟩, hnone⟩ | ⟨refusal, herror, hsome⟩
  · rw [hplace, hnone]
  · rw [herror, hsome]

/-- Either end that is blocked refuses the range, and the first one is told. -/
theorem Editing.replace_of_obstacle (ht : buffer.Tiled) (hv : ¬ buffer.InvalidRange start stop)
    {refusal : Refusal} (h : rangeObstacle? start stop buffer.chunks = some refusal) :
    (replace start stop content keep).run buffer = .error refusal buffer := by
  obtain ⟨a, m, c, hs, h1, h2⟩ := exists_range hv
  have ht1 : Tiles [] (a ++ (m ++ c)) buffer.chunks := hs ▸ ht
  have ht2 : Tiles [] ((a ++ m) ++ c) buffer.chunks := by simpa using ht1
  simp only [replace, cutRange, EStateM.run_bind, checkCut_eq ht1 h1]
  rw [rangeObstacle?] at h
  cases hstart : obstacle? start buffer.chunks with
  | some first =>
      obtain rfl : first = refusal := by simpa [hstart] using h
      rfl
  | none =>
      have hstop : obstacle? stop buffer.chunks = some refusal := by simpa [hstart] using h
      simp only [checkCut_eq ht2 h2, hstop]

/-- A valid range is edited, or refused for the first obstacle to its cuts. -/
theorem Buffer.apply_range (ht : buffer.Tiled) (hv : ¬ buffer.InvalidRange start stop)
    (hop : operation.range? = some (start, stop, content, keep)) (hlt : start < stop) :
    buffer.apply operation =
      match rangeObstacle? start stop buffer.chunks with
      | some refusal => .error refusal
      | none => .ok { buffer with
          chunks := editRange buffer.source start stop content keep buffer.chunks } := by
  cases hobs : rangeObstacle? start stop buffer.chunks with
  | some refusal =>
      have hrun : operation.editing.run buffer = .error refusal buffer := by
        rw [Operation.editing_of_range hop (Nat.ne_of_lt hlt), EStateM.run_bind,
          Editing.checkRange_of_not_invalid hv]
        exact Editing.replace_of_obstacle ht hv hobs
      rw [apply, hrun]
  | none =>
      have hfree : ¬ operation.Refused buffer := by
        rw [Operation.refused_of_range hop (Nat.ne_of_lt hlt)]
        exact not_or.mpr ⟨hv, rangeObstacle?_eq_none_iff.mp hobs⟩
      rcases apply_cases ht operation with ⟨h, -⟩ | ⟨-, next, hans, -, hacc⟩
      · exact absurd h hfree
      · rw [hans, hacc.range_eq hop hlt]

end Range

end ParseView.Edit
