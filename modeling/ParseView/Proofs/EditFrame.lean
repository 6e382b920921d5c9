import ParseView.Proofs.EditLocality
import ParseView.Proofs.EditMargins

/-!
# An overwrite touches its range and nothing else

Cut at the ends of the range, the row is in three parts (`Divided`). An overwrite
leaves the outer two as they are and shows its text in the place of the middle one. What
was inserted at the ends of the range belongs to the one or the other: text to the left
of the start and to the right of the end stays, as if it had been inserted afterwards,
and text to the right of the start and to the left of the end is gone.

The inserts are told chunk by chunk as the range edits are (`Buffer.insertAt`), so that
both of these are again questions about one chunk.
-/

namespace ParseView.Edit

open Text (utf8Length utf8Length_append utf8Length_pos)

/-! ## A row in three parts -/

/-- The chunks of a row stand for the bytes between two offsets, one after the other. -/
structure Spans (start stop : Nat) (row : List Chunk) : Prop where
  ne_nil : row ≠ []
  start_of_head : ∀ chunk ∈ row.head?, chunk.start = start
  stop_of_getLast : ∀ chunk ∈ row.getLast?, chunk.stop = stop
  adjacent : ∀ left chunk next right, row = left ++ chunk :: next :: right →
    chunk.stop = next.start
  start_lt_stop : ∀ chunk ∈ row, chunk.start < chunk.stop

/-- A row cut at the ends of a range: what ends before it, what stands for it, and what
begins behind it. -/
structure Divided (start stop : Nat) (row left inside right : List Chunk) : Prop where
  row_eq : row = left ++ (inside ++ right)
  left_eq : left = row.filter (·.stop ≤ start)
  right_eq : right = row.filter (stop ≤ ·.start)
  spans : Spans start stop inside

/-- The part of the source that a chunk stands for. -/
def Chunk.bounds (chunk : Chunk) : Nat × Nat := (chunk.start, chunk.stop)

section Parts

variable {before text a m c : List Char} {row left inside right : List Chunk}
  {start stop : Nat} {content : List Char} {keep : Bool}

theorem Tiles.spans (h : Tiles before text row) (hne : text ≠ []) :
    Spans (utf8Length before) (utf8Length (before ++ text)) row where
  ne_nil := mt h.eq_nil_iff.mp hne
  start_of_head _ hm := h.start_of_head hm
  stop_of_getLast _ hm := h.stop_of_getLast hm
  adjacent _ _ _ _ hrow := (hrow ▸ h).adjacent
  start_lt_stop _ hm := h.start_lt_stop hm

theorem Tiles.divided (hl : Tiles [] a left) (hi : Tiles a m inside)
    (hr : Tiles (a ++ m) c right) (h1 : start = utf8Length a)
    (h2 : stop = utf8Length (a ++ m)) (hlt : start < stop) :
    Divided start stop (left ++ (inside ++ right)) left inside right where
  row_eq := rfl
  left_eq := by
    have hleft : left.filter (·.stop ≤ start) = left := List.filter_eq_self.mpr fun c hm => by
      have := hl.stop_le hm
      simpa [h1] using this
    have hinside : inside.filter (·.stop ≤ start) = [] := List.filter_eq_nil_iff.mpr fun c hm => by
      have := hi.lt_stop hm
      simp [h1, this]
    have hright : right.filter (·.stop ≤ start) = [] := List.filter_eq_nil_iff.mpr fun c hm => by
      have := hr.lt_stop hm
      simp only [decide_eq_true_eq]
      omega
    simp only [List.filter_append, hleft, hinside, hright, List.append_nil]
  right_eq := by
    have hleft : left.filter (stop ≤ ·.start) = [] := List.filter_eq_nil_iff.mpr fun c hm => by
      have hle := hl.stop_le hm
      have hpos := hl.start_lt_stop hm
      simp only [List.nil_append, decide_eq_true_eq] at hle ⊢
      omega
    have hinside : inside.filter (stop ≤ ·.start) = [] := List.filter_eq_nil_iff.mpr fun c hm => by
      have hle := hi.stop_le hm
      have hpos := hi.start_lt_stop hm
      simp only [decide_eq_true_eq]
      omega
    have hright : right.filter (stop ≤ ·.start) = right := List.filter_eq_self.mpr fun c hm => by
      have := hr.le_start hm
      simpa [h2] using this
    simp only [List.filter_append, hleft, hinside, hright, List.nil_append]
  spans := by
    subst h1 h2
    refine hi.spans fun hm => ?_
    subst hm
    simp at hlt

theorem map_bounds_replaceRow :
    (replaceRow content keep row).map Chunk.bounds = row.map Chunk.bounds := by
  cases row with
  | nil => rfl
  | cons chunk rest => simp [replaceRow, Chunk.bounds]

/-- In the place of a row that is not empty nothing is shown but the text. -/
theorem flatMap_render_replaceRow (h : row ≠ []) :
    (replaceRow content false row).flatMap Chunk.render = content := by
  obtain ⟨chunk, rest, rfl⟩ := List.exists_cons_of_ne_nil h
  simp [replaceRow, Chunk.edit, Chunk.render, List.flatMap_map]

theorem margins_of_mem_replaceRow {chunk : Chunk} (h : chunk ∈ replaceRow content false row) :
    chunk.intro = [] ∧ chunk.outro = [] := by
  cases row with
  | nil => simp [replaceRow] at h
  | cons first rest =>
      rcases List.mem_cons.mp h with rfl | h
      · exact ⟨rfl, rfl⟩
      · obtain ⟨other, -, rfl⟩ := List.mem_map.mp h
        exact ⟨rfl, rfl⟩

end Parts

/-! ## Accepted edits of a range -/

section Range

variable {buffer next : Buffer} {operation : Operation} {start stop : Nat}
  {content : List Char} {keep : Bool}

theorem Buffer.Tiled.apply (ht : buffer.Tiled) (h : buffer.apply operation = .ok next) :
    next.Tiled ∧ next.source = buffer.source := by
  rcases apply_cases ht operation with ⟨-, ⟨refusal, -, herr⟩, -⟩ | ⟨-, done, hans, -, hacc⟩
  · rw [herr] at h
    exact nomatch h
  · obtain rfl : done = next := Except.ok.inj (hans.symm.trans h)
    exact ⟨hacc.tiled ht, hacc.source_eq⟩

/-- A range that can be overwritten is valid and not empty, and nothing is in its way. -/
theorem Buffer.free_of_overwrite (ht : buffer.Tiled)
    (h : buffer.apply (.overwrite start stop content) = .ok next) :
    start < stop ∧ ¬ buffer.InvalidRange start stop ∧
      rangeObstacle? start stop buffer.chunks = none := by
  rcases apply_cases ht (.overwrite start stop content) with
    ⟨-, ⟨refusal, -, herr⟩, -⟩ | ⟨hfree, -⟩
  · rw [herr] at h
    exact nomatch h
  · simp only [Operation.Refused, not_or] at hfree
    obtain ⟨hv, hne, hb⟩ := hfree
    have hle : ¬ stop < start := fun hlt => hv (.inl hlt)
    exact ⟨by omega, hv, rangeObstacle?_eq_none_iff.mpr hb⟩

theorem Buffer.not_invalid_of_end {offset : Nat} (hv : ¬ buffer.InvalidRange start stop)
    (h : offset = start ∨ offset = stop) : ¬ buffer.Invalid offset := by
  rcases h with rfl | rfl
  · exact fun hbad => hv (.inr (.inl hbad))
  · exact fun hbad => hv (.inr (.inr hbad))

theorem Buffer.apply_free (ht : buffer.Tiled) (hv : ¬ buffer.InvalidRange start stop)
    (hfree : rangeObstacle? start stop buffer.chunks = none) (hlt : start < stop)
    (hop : operation.range? = some (start, stop, content, keep)) :
    buffer.apply operation = .ok { buffer with
      chunks := editRange buffer.source start stop content keep buffer.chunks } := by
  rw [apply_range ht hv hop hlt, hfree]

/-- A range with nothing in its way is cut out of the row, and its edit changes what was
cut out. -/
theorem Buffer.exists_divided (ht : buffer.Tiled) (hv : ¬ buffer.InvalidRange start stop)
    (hlt : start < stop) (hfree : rangeObstacle? start stop buffer.chunks = none) :
    ∃ row left inside right,
      (Editing.cutRange start stop).run buffer = .ok () { buffer with chunks := row } ∧
      Divided start stop row left inside right ∧
      ∀ content keep, editRange buffer.source start stop content keep buffer.chunks =
        left ++ (replaceRow content keep inside ++ right) := by
  obtain ⟨a, m, c, hs, h1, h2⟩ := Editing.exists_range hv
  obtain ⟨hb1, hb2⟩ := not_or.mp (rangeObstacle?_eq_none_iff.mp hfree)
  obtain ⟨left, rest, inside, right, hrun, hc1, hc2, hl, hi, hr⟩ :=
    Editing.cutRange_of_not_blocked (hs ▸ ht) hs h1 h2 hb1 hb2
  refine ⟨_, left, inside, right, hrun, hl.divided hi hr h1 h2 hlt, fun content keep => ?_⟩
  rw [editRange, hc1.eq_cutChunks_cutChunks hc2 hl hi hr hs h1 h2,
    map_replaceWithin_eq hl hi hr h1 h2, List.append_assoc]

end Range

/-! ## Inserts -/

/-- What an insert beside an offset makes of a chunk that does not go on behind it. -/
def Chunk.insertAt (side : Side) (offset : Nat) (f : List Char → List Char)
    (chunk : Chunk) : Chunk :=
  match side with
  | .left =>
    if chunk.start < offset ∧ chunk.stop = offset then { chunk with outro := f chunk.outro }
    else chunk
  | .right => if chunk.start = offset then { chunk with intro := f chunk.intro } else chunk

/-- The buffer that an insert beside an offset leaves. -/
def Buffer.insertAt (side : Side) (offset : Nat) (f : List Char → List Char)
    (buffer : Buffer) : Buffer :=
  { buffer with
    intro := if side = .left ∧ offset = 0 then f buffer.intro else buffer.intro
    chunks := (cutChunks buffer.source offset buffer.chunks).map
      (Chunk.insertAt side offset f)
    outro :=
      if side = .right ∧ offset = utf8Length buffer.source then f buffer.outro
      else buffer.outro }

section InsertChunk

variable {source : List Char} {chunk : Chunk} {side : Side} {offset other start stop : Nat}
  {f : List Char → List Char} {content : List Char} {keep : Bool}

@[simp] theorem Chunk.insertAt_start : (chunk.insertAt side offset f).start = chunk.start := by
  cases side <;> simp only [insertAt] <;> split <;> rfl

@[simp] theorem Chunk.insertAt_stop : (chunk.insertAt side offset f).stop = chunk.stop := by
  cases side <;> simp only [insertAt] <;> split <;> rfl

@[simp] theorem Chunk.surrounds_insertAt :
    (chunk.insertAt side offset f).surrounds other = chunk.surrounds other := by
  rw [surrounds, surrounds, insertAt_start, insertAt_stop]

theorem Chunk.refusal?_insertAt :
    (chunk.insertAt side offset f).refusal? other = chunk.refusal? other := by
  have hrep : (chunk.insertAt side offset f).isReplaced = chunk.isReplaced := by
    cases side <;> simp only [insertAt] <;> split <;> rfl
  rw [refusal?, refusal?, surrounds_insertAt, insertAt_start, insertAt_stop, hrep]

theorem Chunk.insertAt_left_of_not (h : ¬ (chunk.start < offset ∧ chunk.stop = offset)) :
    chunk.insertAt .left offset f = chunk :=
  if_neg h

theorem Chunk.insertAt_right_of_ne (h : chunk.start ≠ offset) :
    chunk.insertAt .right offset f = chunk :=
  if_neg h

/-- A cut leaves the text to the right of an edge with the chunk that begins there. -/
theorem Chunk.cutAt_insertAt_right (h : chunk.surrounds offset = false) :
    (chunk.insertAt .right offset f).cutAt source other =
      (chunk.cutAt source other).map (insertAt .right offset f) := by
  cases hs : chunk.surrounds other with
  | false =>
      rw [cutAt_of_not_surrounds hs, cutAt_of_not_surrounds (by simpa using hs)]
      rfl
  | true =>
      have hne : other ≠ offset := by
        rintro rfl
        rw [hs] at h
        exact Bool.noConfusion h
      rw [cutAt_of_surrounds hs, cutAt_of_surrounds (by simpa using hs)]
      by_cases hstart : chunk.start = offset
      · cases he : chunk.isEdited <;>
          simp [insertAt, hstart, hne, firstHalf, secondHalf, he]
      · simp [insertAt, hstart, hne, firstHalf, secondHalf]

/-- A cut behind an edge does not come near the text to the left of it. -/
theorem Chunk.cutAt_insertAt_left (h : chunk.surrounds offset = false) (hle : offset ≤ other) :
    (chunk.insertAt .left offset f).cutAt source other =
      (chunk.cutAt source other).map (insertAt .left offset f) := by
  cases hs : chunk.surrounds other with
  | false =>
      rw [cutAt_of_not_surrounds hs, cutAt_of_not_surrounds (by simpa using hs)]
      rfl
  | true =>
      rw [cutAt_of_surrounds hs, cutAt_of_surrounds (by simpa using hs)]
      rw [Chunk.surrounds_iff] at hs
      rw [Chunk.not_surrounds_iff] at h
      rw [insertAt_left_of_not (by omega), List.map_cons, List.map_singleton,
        insertAt_left_of_not (by simp only [firstHalf]; omega),
        insertAt_left_of_not (by simp only [secondHalf]; omega)]

theorem Chunk.replaceWithin_insertAt_left (hle : offset ≤ start) :
    (chunk.insertAt .left offset f).replaceWithin start stop content keep =
      (chunk.replaceWithin start stop content keep).insertAt .left offset f := by
  by_cases ht : chunk.start < offset ∧ chunk.stop = offset
  · have hout : ¬ (start ≤ chunk.start ∧ chunk.start < stop) := by omega
    rw [replaceWithin_of_outside hout, replaceWithin_of_outside (by simpa using hout)]
  · rw [insertAt_left_of_not ht, insertAt_left_of_not (by simpa using ht)]

theorem Chunk.replaceWithin_insertAt_right (hle : stop ≤ offset) :
    (chunk.insertAt .right offset f).replaceWithin start stop content keep =
      (chunk.replaceWithin start stop content keep).insertAt .right offset f := by
  by_cases ht : chunk.start = offset
  · have hout : ¬ (start ≤ chunk.start ∧ chunk.start < stop) := by omega
    rw [replaceWithin_of_outside hout, replaceWithin_of_outside (by simpa using hout)]
  · rw [insertAt_right_of_ne ht, insertAt_right_of_ne (by simpa using ht)]

/-- Text to the right of the start of a range is gone once the range is overwritten. -/
theorem Chunk.replaceWithin_insertAt_start (hlt : start < stop) :
    (chunk.insertAt .right start f).replaceWithin start stop content false =
      chunk.replaceWithin start stop content false := by
  by_cases ht : chunk.start = start
  · have hin : start ≤ chunk.start ∧ chunk.start < stop := by omega
    rw [replaceWithin, replaceWithin, insertAt_start, if_pos hin, if_pos hin, if_pos ht, if_pos ht,
      insertAt, if_pos ht]
    rfl
  · rw [insertAt_right_of_ne ht]

/-- Text to the left of the end of a range is gone once the range is cut and overwritten. -/
theorem Chunk.replaceWithin_insertAt_stop (hlt : start < stop) :
    ((chunk.insertAt .left stop f).cutAt source start).map
        (replaceWithin start stop content false) =
      (chunk.cutAt source start).map (replaceWithin start stop content false) := by
  by_cases ht : chunk.start < stop ∧ chunk.stop = stop
  · have heq : chunk.insertAt .left stop f = { chunk with outro := f chunk.outro } := if_pos ht
    cases hs : chunk.surrounds start with
    | false =>
        have hin : start ≤ chunk.start ∧ chunk.start < stop := by
          rw [Chunk.not_surrounds_iff] at hs
          omega
        rw [cutAt_of_not_surrounds hs, cutAt_of_not_surrounds (by simpa using hs), heq]
        by_cases hfirst : chunk.start = start <;>
          simp [replaceWithin, hin, hfirst, hlt, Chunk.edit]
    | true =>
        -- The text goes to the second half, or was dropped with it.
        have hsecond : start ≤ start ∧ start < stop := ⟨Nat.le_refl _, hlt⟩
        rw [cutAt_of_surrounds hs, cutAt_of_surrounds (by simpa using hs), heq]
        cases he : chunk.isEdited <;>
          simp [firstHalf, secondHalf, he, replaceWithin, hsecond, Chunk.edit]
  · rw [insertAt_left_of_not ht]

end InsertChunk

section InsertRow

variable {source : List Char} {row : List Chunk} {side : Side} {offset other start stop : Nat}
  {f : List Char → List Char} {content : List Char} {keep : Bool}

theorem IsEdge.map_insertAt (h : IsEdge other row) :
    IsEdge other (row.map (Chunk.insertAt side offset f)) := by
  intro chunk hm
  obtain ⟨whole, hwhole, rfl⟩ := List.mem_map.mp hm
  rw [Chunk.surrounds_insertAt]
  exact h whole hwhole

theorem cutChunks_insertAt (h : IsEdge offset row) (hside : side = .right ∨ offset ≤ other) :
    cutChunks source other (row.map (Chunk.insertAt side offset f)) =
      (cutChunks source other row).map (Chunk.insertAt side offset f) := by
  rw [cutChunks, cutChunks, List.flatMap_map, List.map_flatMap]
  refine List.flatMap_congr fun chunk hm => ?_
  cases side with
  | left => exact Chunk.cutAt_insertAt_left (h chunk hm) (by simpa using hside)
  | right => exact Chunk.cutAt_insertAt_right (h chunk hm)

theorem obstacle?_insertAt (hb : ¬ Blocked offset row) :
    obstacle? other ((cutChunks source offset row).map (Chunk.insertAt side offset f)) =
      obstacle? other row := by
  have hcut : obstacle? other (cutChunks source offset row) = obstacle? other row :=
    obstacle?_cutChunks hb
  have hchunk : Chunk.refusal? other ∘ Chunk.insertAt side offset f = Chunk.refusal? other :=
    funext fun chunk => Chunk.refusal?_insertAt
  rw [← hcut, obstacle?, List.findSome?_map, hchunk, obstacle?]

/-- Inserts in front of a range on the left and behind it on the right are done before or
after the edit of the range. -/
theorem editRange_insertAt (hle : start ≤ stop)
    (hout : side = .left ∧ offset ≤ start ∨ side = .right ∧ stop ≤ offset) :
    editRange source start stop content keep
        ((cutChunks source offset row).map (Chunk.insertAt side offset f)) =
      (cutChunks source offset (editRange source start stop content keep row)).map
        (Chunk.insertAt side offset f) := by
  have hstart : side = .right ∨ offset ≤ start := hout.symm.imp And.left And.right
  have hstop : side = .right ∨ offset ≤ stop := hstart.imp_right fun h => Nat.le_trans h hle
  have hcut : cutChunks source stop (cutChunks source start
        ((cutChunks source offset row).map (Chunk.insertAt side offset f))) =
      (cutChunks source stop (cutChunks source start (cutChunks source offset row))).map
        (Chunk.insertAt side offset f) := by
    rw [cutChunks_insertAt isEdge_cutChunks hstart, cutChunks_insertAt isEdge_cutChunks.cut hstop]
  rw [cutChunks_editRange (hout.imp And.right And.right), editRange, editRange, hcut,
    List.map_map, List.map_map]
  refine List.map_congr_left fun chunk _ => ?_
  rcases hout with ⟨rfl, hle⟩ | ⟨rfl, hle⟩
  · exact Chunk.replaceWithin_insertAt_left hle
  · exact Chunk.replaceWithin_insertAt_right hle

/-- What was inserted to the right of the start of a range or to the left of its end is
gone once the range is overwritten. -/
theorem editRange_insertAt_within (hlt : start < stop)
    (hin : side = .right ∧ offset = start ∨ side = .left ∧ offset = stop) :
    editRange source start stop content false
        ((cutChunks source offset row).map (Chunk.insertAt side offset f)) =
      editRange source start stop content false row := by
  rcases hin with ⟨rfl, rfl⟩ | ⟨rfl, rfl⟩
  · rw [editRange, cutChunks_insertAt isEdge_cutChunks (.inl rfl),
      cutChunks_of_isEdge isEdge_cutChunks, cutChunks_insertAt isEdge_cutChunks (.inl rfl),
      List.map_map, editRange]
    exact List.map_congr_left fun chunk _ => Chunk.replaceWithin_insertAt_start hlt
  · rw [editRange, cutChunks_comm, cutChunks_of_isEdge isEdge_cutChunks.map_insertAt, editRange,
      cutChunks_comm source start, cutChunks, List.flatMap_map, List.map_flatMap]
    conv_rhs => rw [cutChunks, List.map_flatMap]
    exact List.flatMap_congr fun chunk _ => Chunk.replaceWithin_insertAt_stop hlt

end InsertRow

/-! ### What the program does -/

section InsertBuffer

variable {buffer next : Buffer} {operation : Operation} {side : Side} {offset : Nat}
  {f : List Char → List Char} {before text a b : List Char} {row left right : List Chunk}

theorem map_insertAt_left_of_ne (h : ∀ chunk ∈ row, chunk.stop ≠ offset) :
    row.map (Chunk.insertAt .left offset f) = row := by
  have hrow : ∀ chunk ∈ row, chunk.insertAt .left offset f = chunk := fun chunk hm =>
    Chunk.insertAt_left_of_not fun ht => h chunk hm ht.2
  rw [List.map_congr_left hrow, List.map_id']

theorem map_insertAt_right_of_ne (h : ∀ chunk ∈ row, chunk.start ≠ offset) :
    row.map (Chunk.insertAt .right offset f) = row := by
  have hrow : ∀ chunk ∈ row, chunk.insertAt .right offset f = chunk := fun chunk hm =>
    Chunk.insertAt_right_of_ne (h chunk hm)
  rw [List.map_congr_left hrow, List.map_id']

theorem Buffer.insertedLeft_eq (hs : buffer.source = a ++ b) (ho : offset = utf8Length a)
    (hc : Cuts offset buffer.chunks left right) (hl : Tiles [] a left) (hr : Tiles a b right) :
    buffer.insertedLeft f left right = buffer.insertAt .left offset f := by
  have hcut : cutChunks buffer.source offset buffer.chunks = left ++ right :=
    hc.eq_cutChunks hl hr (by simp [hs]) ho
  have hright : right.map (Chunk.insertAt .left offset f) = right :=
    map_insertAt_left_of_ne fun chunk hm => by
      have := hr.lt_stop hm
      omega
  rcases List.eq_nil_or_concat left with rfl | ⟨init, chunk, rfl⟩
  · obtain rfl : a = [] := by simpa using hl.eq_nil_iff
    obtain rfl : offset = 0 := ho
    rw [insertedLeft_nil, insertAt, hcut, List.nil_append, hright]
    simp
  · rw [List.concat_eq_append] at hl hc hcut ⊢
    obtain ⟨a, rest, rfl, hinit, hlast⟩ := hl.of_append
    obtain ⟨piece, rest', rfl, hchunk, hnil⟩ := hlast.of_cons
    obtain rfl : rest' = [] := by simpa using hnil.eq_nil_iff
    have hstop := hchunk.stop_eq
    have hlt := hchunk.start_lt_stop
    have hinit : init.map (Chunk.insertAt .left offset f) = init :=
      map_insertAt_left_of_ne fun other hm => by
        have hle := hinit.stop_le hm
        have hstart := hchunk.start_eq
        simp only [List.append_nil] at ho
        simp only [List.nil_append] at hle hstart hstop
        omega
    have htakes : chunk.start < offset ∧ chunk.stop = offset := by
      simp only [List.append_nil] at ho
      simp only [List.nil_append] at hstop
      omega
    have hne : ¬ offset = 0 := by omega
    rw [insertedLeft_concat, insertAt, hcut, List.map_append, List.map_append, hinit, hright,
      List.map_singleton, Chunk.insertAt, if_pos htakes]
    simp [hne]

theorem Buffer.insertedRight_eq (hs : buffer.source = a ++ b) (ho : offset = utf8Length a)
    (hc : Cuts offset buffer.chunks left right) (hl : Tiles [] a left) (hr : Tiles a b right) :
    buffer.insertedRight f left right = buffer.insertAt .right offset f := by
  have hcut : cutChunks buffer.source offset buffer.chunks = left ++ right :=
    hc.eq_cutChunks hl hr (by simp [hs]) ho
  have hleft : left.map (Chunk.insertAt .right offset f) = left :=
    map_insertAt_right_of_ne fun chunk hm => by
      have hle := hl.stop_le hm
      have hlt := hl.start_lt_stop hm
      rw [List.nil_append] at hle
      omega
  cases hr with
  | nil =>
      have hlength : offset = utf8Length buffer.source := by rw [hs, List.append_nil, ho]
      rw [insertedRight, insertAt, hcut, List.append_nil, hleft]
      simp [hlength]
  | @cons _ piece behind chunk rest hchunk hrest =>
      have hpos := utf8Length_pos hchunk.ne_nil
      have hne : ¬ offset = utf8Length buffer.source := by
        simp only [hs, utf8Length_append]
        omega
      have hrest : rest.map (Chunk.insertAt .right offset f) = rest :=
        map_insertAt_right_of_ne fun other hm => by
          have hle := hrest.le_start hm
          rw [utf8Length_append] at hle
          omega
      rw [insertedRight, insertAt, hcut, List.map_append, List.map_cons, hleft, hrest,
        Chunk.insertAt, if_pos (hchunk.start_eq.trans ho.symm)]
      simp [hne]

/-- The buffer that an accepted insert leaves. -/
theorem Accepted.insertAt_eq (ht : buffer.Tiled) (h : Accepted buffer operation next)
    (hop : operation.insertion? (utf8Length buffer.source) = some (side, offset, f)) :
    next = buffer.insertAt side offset f := by
  cases h with
  | append text =>
      cases hop
      have hedge : IsEdge (utf8Length buffer.source) buffer.chunks :=
        ht.isEdge_behind (Nat.le_refl _)
      have hne : ∀ chunk ∈ buffer.chunks, chunk.start ≠ utf8Length buffer.source :=
        fun chunk hm => by
          have hle := ht.stop_le hm
          have hlt := ht.start_lt_stop hm
          rw [List.nil_append] at hle
          omega
      simp [Buffer.insertAt, cutChunks_of_isEdge hedge, map_insertAt_right_of_ne hne]
  | prepend text =>
      cases hop
      have hedge : IsEdge 0 buffer.chunks := ht.isEdge_before (Nat.le_refl _)
      have hne : ∀ chunk ∈ buffer.chunks, chunk.stop ≠ 0 := fun chunk hm =>
        Nat.ne_of_gt (ht.lt_stop hm)
      simp [Buffer.insertAt, cutChunks_of_isEdge hedge, map_insertAt_left_of_ne hne]
  | left hleft hs ho hc hl hr =>
      cases (Operation.insertion?_of_left hleft).symm.trans hop
      exact Buffer.insertedLeft_eq hs ho hc hl hr
  | right hright hs ho hc hl hr =>
      cases (Operation.insertion?_of_right hright).symm.trans hop
      exact Buffer.insertedRight_eq hs ho hc hl hr
  | nothing => cases hop
  | range hrange =>
      exact nomatch (Operation.insertion?_of_range hrange).symm.trans hop

theorem Operation.insertion?_of_place? {length : Nat}
    (h : operation.place? length = some (side, offset)) :
    ∃ f, operation.insertion? length = some (side, offset, f) := by
  obtain ⟨⟨side', offset', f⟩, hop, heq⟩ := Option.map_eq_some_iff.mp h
  cases heq
  exact ⟨f, hop⟩

theorem Buffer.apply_insertAt (ht : buffer.Tiled)
    (hop : operation.insertion? (utf8Length buffer.source) = some (side, offset, f))
    (hv : ¬ buffer.Invalid offset) (hfree : obstacle? offset buffer.chunks = none) :
    buffer.apply operation = .ok (buffer.insertAt side offset f) := by
  rcases apply_cases ht operation with ⟨hrefused, -⟩ | ⟨-, next, hans, -, hacc⟩
  · have hor : buffer.Invalid offset ∨ Blocked offset buffer.chunks := by
      cases operation with
      | append | prepend => exact hrefused.elim
      | appendLeft | prependLeft | appendRight | prependRight =>
          cases hop
          exact hrefused
      | _ => cases hop
    exact absurd hor (not_or.mpr ⟨hv, obstacle?_eq_none_iff.mp hfree⟩)
  · rw [hans, hacc.insertAt_eq ht hop]

end InsertBuffer

/-! ## Overwriting a range -/

section Overwrite

variable {buffer next : Buffer} {insert : Operation} {start stop : Nat}
  {content : List Char} {side : Side} {offset : Nat} {f : List Char → List Char}

theorem rangeObstacle?_editRange_self {source : List Char} {row : List Chunk} {keep : Bool} :
    rangeObstacle? start stop (editRange source start stop content keep row) = none := by
  rw [rangeObstacle?, obstacle?_of_isEdge isEdge_start_editRange,
    obstacle?_of_isEdge isEdge_stop_editRange]
  rfl

/-- Where a range was overwritten it can be overwritten again, and only the second text
is left. -/
theorem Buffer.overwrite_overwrite (ht : buffer.Tiled)
    (h : buffer.apply (.overwrite start stop content) = .ok next) (content' : List Char) :
    ∃ last, next.apply (.overwrite start stop content') = .ok last ∧
      buffer.apply (.overwrite start stop content') = .ok last := by
  obtain ⟨hlt, hv, hfree⟩ := free_of_overwrite ht h
  obtain ⟨htnext, hsource⟩ := ht.apply h
  obtain rfl := Except.ok.inj ((apply_free ht hv hfree hlt rfl).symm.trans h)
  refine ⟨_, ?_, apply_free ht hv hfree hlt rfl⟩
  rw [apply_free htnext hv rangeObstacle?_editRange_self hlt rfl, editRange_editRange]

/-- An insert at an end of a range that can be overwritten is accepted, and the range
can be overwritten behind it. -/
theorem Buffer.overwrite_insertAt (ht : buffer.Tiled)
    (h : buffer.apply (.overwrite start stop content) = .ok next)
    (hop : insert.insertion? (utf8Length buffer.source) = some (side, offset, f))
    (hoffset : offset = start ∨ offset = stop) :
    buffer.apply insert = .ok (buffer.insertAt side offset f) ∧
      (buffer.insertAt side offset f).apply (.overwrite start stop content) =
        .ok { buffer.insertAt side offset f with
          chunks := editRange buffer.source start stop content false
            (buffer.insertAt side offset f).chunks } := by
  obtain ⟨hlt, hv, hfree⟩ := free_of_overwrite ht h
  obtain ⟨hfree1, hfree2⟩ := Option.or_eq_none_iff.mp hfree
  have hnone : obstacle? offset buffer.chunks = none := by
    rcases hoffset with rfl | rfl
    · exact hfree1
    · exact hfree2
  have hins := apply_insertAt ht hop (not_invalid_of_end hv hoffset) hnone
  have hb : ¬ Blocked offset buffer.chunks := obstacle?_eq_none_iff.mp hnone
  have hsame : rangeObstacle? start stop (buffer.insertAt side offset f).chunks = none := by
    rw [rangeObstacle?, insertAt, obstacle?_insertAt hb, obstacle?_insertAt hb, hfree1, hfree2]
    rfl
  exact ⟨hins, apply_free (ht.apply hins).1 hv hsame hlt rfl⟩

/-- To the left of the start and to the right of the end text can be inserted before or
after the range is overwritten. -/
theorem Buffer.overwrite_insert_comm (ht : buffer.Tiled)
    (h : buffer.apply (.overwrite start stop content) = .ok next)
    (hop : insert.insertion? (utf8Length buffer.source) = some (side, offset, f))
    (hside : side = .left ∧ offset = start ∨ side = .right ∧ offset = stop) :
    ∃ inserted both, buffer.apply insert = .ok inserted ∧
      inserted.apply (.overwrite start stop content) = .ok both ∧
      next.apply insert = .ok both := by
  obtain ⟨hlt, hv, hfree⟩ := free_of_overwrite ht h
  obtain ⟨htnext, hsource⟩ := ht.apply h
  obtain ⟨hins, hover⟩ := overwrite_insertAt ht h hop (hside.imp And.right And.right)
  obtain rfl := Except.ok.inj ((apply_free ht hv hfree hlt rfl).symm.trans h)
  have hout : side = .left ∧ offset ≤ start ∨ side = .right ∧ stop ≤ offset :=
    hside.imp (And.imp_right Nat.le_of_eq) (And.imp_right fun ho => Nat.le_of_eq ho.symm)
  have hvalid : ¬ buffer.Invalid offset :=
    not_invalid_of_end hv (hside.imp And.right And.right)
  have hedge : IsEdge offset
      (editRange buffer.source start stop content false buffer.chunks) := by
    rcases hside with ⟨-, rfl⟩ | ⟨-, rfl⟩
    · exact isEdge_start_editRange
    · exact isEdge_stop_editRange
  refine ⟨_, _, hins, hover, ?_⟩
  rw [apply_insertAt htnext hop hvalid (obstacle?_of_isEdge hedge)]
  simp only [insertAt, editRange_insertAt (Nat.le_of_lt hlt) hout]

/-- To the right of the start and to the left of the end an overwrite drops what was
inserted. -/
theorem Buffer.overwrite_insert_within (ht : buffer.Tiled)
    (h : buffer.apply (.overwrite start stop content) = .ok next)
    (hop : insert.insertion? (utf8Length buffer.source) = some (side, offset, f))
    (hside : side = .right ∧ offset = start ∨ side = .left ∧ offset = stop) :
    ∃ inserted, buffer.apply insert = .ok inserted ∧
      inserted.apply (.overwrite start stop content) = .ok next := by
  obtain ⟨hlt, hv, hfree⟩ := free_of_overwrite ht h
  obtain ⟨hins, hover⟩ := overwrite_insertAt ht h hop (hside.imp And.right And.right)
  obtain rfl := Except.ok.inj ((apply_free ht hv hfree hlt rfl).symm.trans h)
  refine ⟨_, hins, hover.trans ?_⟩
  have hintro : ¬ (side = .left ∧ offset = 0) := by
    rcases hside with ⟨rfl, -⟩ | ⟨-, rfl⟩
    · simp
    · omega
  have houtro : ¬ (side = .right ∧ offset = utf8Length buffer.source) := by
    obtain ⟨a, m, c, hs, -, hstop⟩ := Editing.exists_range hv
    rw [hs, ← List.append_assoc, utf8Length_append]
    rcases hside with ⟨-, rfl⟩ | ⟨rfl, -⟩
    · omega
    · simp
  simp only [insertAt, editRange_insertAt_within hlt hside, if_neg hintro, if_neg houtro]

end Overwrite

/-- An overwrite that is accepted touches its range and nothing else. The row is cut at
the ends of the range; of the three parts only the middle one is changed, which keeps
its cuts and shows the text and no more. What is inserted to the left of the start or to
the right of the end is there whether it came before or after, and what was inserted on
the inner side of either end is gone. To remove a range is to overwrite it with nothing,
and of two overwrites of a range only the second one is left. -/
theorem overwrite_touches_range (source : List Char) (history : List Operation)
    {start stop : Nat} {text : List Char} {next : Buffer}
    (h : ((Buffer.ofSource source).run history).apply (.overwrite start stop text) =
      .ok next) :
    let buffer := (Buffer.ofSource source).run history
    (∃ row left inside right inside',
      (Editing.cutRange start stop).run buffer = .ok () { buffer with chunks := row } ∧
      Divided start stop row left inside right ∧
      next = { buffer with chunks := left ++ (inside' ++ right) } ∧
      inside'.map Chunk.bounds = inside.map Chunk.bounds ∧
      inside'.flatMap Chunk.render = text ∧
      (∀ chunk ∈ inside', chunk.intro = [] ∧ chunk.outro = []) ∧
      next.render = buffer.intro ++ left.flatMap Chunk.render ++ text
        ++ right.flatMap Chunk.render ++ buffer.outro) ∧
    (∀ insert : Operation,
      insert.place? (utf8Length source) = some (.left, start) ∨
        insert.place? (utf8Length source) = some (.right, stop) →
      ∃ inserted both, buffer.apply insert = .ok inserted ∧
        inserted.apply (.overwrite start stop text) = .ok both ∧
        next.apply insert = .ok both) ∧
    (∀ insert : Operation,
      insert.place? (utf8Length source) = some (.right, start) ∨
        insert.place? (utf8Length source) = some (.left, stop) →
      ∃ inserted, buffer.apply insert = .ok inserted ∧
        inserted.apply (.overwrite start stop text) = .ok next) ∧
    (∃ removed, buffer.apply (.remove start stop) = .ok removed ∧
      buffer.apply (.overwrite start stop []) = .ok removed) ∧
    ∀ text', ∃ last, next.apply (.overwrite start stop text') = .ok last ∧
      buffer.apply (.overwrite start stop text') = .ok last := by
  intro buffer
  have ht : buffer.Tiled := (Buffer.ofSource_tiled source).run history
  have hsource : buffer.source = source :=
    Buffer.source_run (Buffer.ofSource_tiled source) history
  obtain ⟨hlt, hv, hfree⟩ := Buffer.free_of_overwrite ht h
  refine ⟨?_, fun insert hplace => ?_, fun insert hplace => ?_, ?_,
    Buffer.overwrite_overwrite ht h⟩
  · obtain ⟨row, left, inside, right, hrun, hdivided, hedit⟩ :=
      Buffer.exists_divided ht hv hlt hfree
    have hnext : next = { buffer with
        chunks := left ++ (replaceRow text false inside ++ right) } := by
      rw [← hedit]
      exact Except.ok.inj (h.symm.trans (Buffer.apply_free ht hv hfree hlt rfl))
    have hshown := @flatMap_render_replaceRow inside text hdivided.spans.ne_nil
    refine ⟨row, left, inside, right, _, hrun, hdivided, hnext, map_bounds_replaceRow, hshown,
      fun chunk hm => margins_of_mem_replaceRow hm, ?_⟩
    rw [hnext, Buffer.render, List.flatMap_append, List.flatMap_append, hshown]
    simp only [List.append_assoc]
  · rcases hplace with hplace | hplace
    · obtain ⟨f, hop⟩ := Operation.insertion?_of_place? hplace
      exact Buffer.overwrite_insert_comm ht h (hsource ▸ hop) (.inl ⟨rfl, rfl⟩)
    · obtain ⟨f, hop⟩ := Operation.insertion?_of_place? hplace
      exact Buffer.overwrite_insert_comm ht h (hsource ▸ hop) (.inr ⟨rfl, rfl⟩)
  · rcases hplace with hplace | hplace
    · obtain ⟨f, hop⟩ := Operation.insertion?_of_place? hplace
      exact Buffer.overwrite_insert_within ht h (hsource ▸ hop) (.inl ⟨rfl, rfl⟩)
    · obtain ⟨f, hop⟩ := Operation.insertion?_of_place? hplace
      exact Buffer.overwrite_insert_within ht h (hsource ▸ hop) (.inr ⟨rfl, rfl⟩)
  · exact ⟨_, Buffer.apply_free ht hv hfree hlt rfl, Buffer.apply_free ht hv hfree hlt rfl⟩

/-- Over an earlier replacement, a removed piece that is cut and inserts on both sides of
both ends. -/
theorem overwrite_touches_range_over_pieces :
    let history : List Operation := [.overwrite 2 3 ['X'], .remove 3 6, .appendLeft 1 ['l'],
      .appendRight 1 ['r'], .appendLeft 5 ['m'], .appendRight 5 ['s']]
    let buffer := (Buffer.ofSource ['a', 'b', 'c', 'd', 'e', 'f', 'g']).run history
    let next := buffer.perform (.overwrite 1 5 ['T'])
    buffer.apply (.overwrite 1 5 ['T']) = .ok next ∧
    buffer.render = ['a', 'l', 'r', 'b', 'X', 'm', 's', 'g'] ∧
    next.render = ['a', 'l', 'T', 's', 'g'] ∧
    (∃ inserted, buffer.apply (.prependLeft 5 ['n']) = .ok inserted ∧
      inserted.apply (.overwrite 1 5 ['T']) = .ok next) ∧
    ∃ last, next.apply (.overwrite 1 5 []) = .ok last ∧
      buffer.apply (.overwrite 1 5 []) = .ok last := by
  intro history buffer next
  have hnext : buffer.apply (.overwrite 1 5 ['T']) = .ok next := by decide +kernel
  obtain ⟨-, -, hwithin, -, hagain⟩ :=
    overwrite_touches_range ['a', 'b', 'c', 'd', 'e', 'f', 'g'] history hnext
  exact ⟨hnext, by decide +kernel, by decide +kernel,
    hwithin (.prependLeft 5 ['n']) (.inr rfl), hagain []⟩

end ParseView.Edit
