import ParseView.Proofs.EditOutcome
import ParseView.Proofs.EditTrace

/-!
# Every history keeps the source in pieces

The row of a buffer stands for its source after every history of edits, and the
chunks that were edited are known from the history alone: they hold the bytes that an
accepted range edit covered, and no others. Both are invariants of one edit
(`Accepted.tiled`, `Accepted.editedAt_iff`) carried along a run. What they come to is
said in terms of the numbers that the chunks store by `partition_of_run`.
-/

namespace ParseView.Edit

open Text (utf8Length utf8Length_append)

/-! ## One edit keeps the row in order -/

theorem Chunk.Covers.congr {before piece : List Char} {chunk chunk' : Chunk}
    (h : chunk.Covers before piece) (hstart : chunk'.start = chunk.start)
    (hstop : chunk'.stop = chunk.stop)
    (hcontent : chunk'.isEdited = false →
      chunk.isEdited = false ∧ chunk'.content = chunk.content) :
    chunk'.Covers before piece where
  ne_nil := h.ne_nil
  start_eq := hstart.trans h.start_eq
  stop_eq := hstop.trans h.stop_eq
  content_eq he := (hcontent he).2.trans (h.content_eq (hcontent he).1)

@[simp] theorem Chunk.edit_start {chunk : Chunk} {text : List Char} {keep : Bool} :
    (chunk.edit text keep).start = chunk.start := by
  cases keep <;> rfl

@[simp] theorem Chunk.edit_stop {chunk : Chunk} {text : List Char} {keep : Bool} :
    (chunk.edit text keep).stop = chunk.stop := by
  cases keep <;> rfl

@[simp] theorem Chunk.edit_isEdited {chunk : Chunk} {text : List Char} {keep : Bool} :
    (chunk.edit text keep).isEdited = true := by
  cases keep <;> rfl

theorem Chunk.Covers.edit {before piece : List Char} {chunk : Chunk}
    (h : chunk.Covers before piece) (text : List Char) (keep : Bool) :
    (chunk.edit text keep).Covers before piece :=
  h.congr (by simp) (by simp) (by simp)

section Rows

variable {before text a b : List Char} {row left right : List Chunk} {chunk : Chunk}

/-- A chunk can be exchanged for one that covers the same piece. -/
theorem Tiles.exchange {chunk' : Chunk} (h : Tiles before text (left ++ chunk :: right))
    (hc : ∀ {before piece}, chunk.Covers before piece → chunk'.Covers before piece) :
    Tiles before text (left ++ chunk' :: right) := by
  obtain ⟨a, rest, rfl, hl, hr⟩ := h.of_append
  obtain ⟨piece, b, rfl, hchunk, hright⟩ := hr.of_cons
  exact hl.append (.cons (hc hchunk) hright)

theorem Tiles.replaceRow (h : Tiles before text row) (content : List Char)
    (keep : Bool) : Tiles before text (replaceRow content keep row) := by
  have hmap : ∀ {before text row}, Tiles before text row →
      Tiles before text (row.map (·.edit [] false)) := by
    intro before text row h
    induction h with
    | nil before => exact .nil before
    | cons hc _ ih => exact .cons (hc.edit [] false) ih
  cases h with
  | nil => exact .nil before
  | cons hc hrest => exact .cons (hc.edit content keep) (hmap hrest)

theorem Tiles.insertedLeft {buffer : Buffer} (f : List Char → List Char)
    (hl : Tiles [] a left) (hr : Tiles a b right) :
    Tiles [] (a ++ b) (buffer.insertedLeft f left right).chunks := by
  have h := hl.append hr
  rcases List.eq_nil_or_concat left with rfl | ⟨init, chunk, rfl⟩
  · simpa [Buffer.insertedLeft_nil] using h
  · rw [List.concat_eq_append] at h ⊢
    rw [Buffer.insertedLeft_concat]
    rw [List.append_assoc] at h
    exact h.exchange fun hc => hc.congr rfl rfl fun he => ⟨he, rfl⟩

theorem Tiles.insertedRight {buffer : Buffer} (f : List Char → List Char)
    (hl : Tiles [] a left) (hr : Tiles a b right) :
    Tiles [] (a ++ b) (buffer.insertedRight f left right).chunks := by
  have h := hl.append hr
  cases right with
  | nil => simpa [Buffer.insertedRight] using h
  | cons chunk rest => exact h.exchange fun hc => hc.congr rfl rfl fun he => ⟨he, rfl⟩

end Rows

theorem Buffer.insertedLeft_source {buffer : Buffer} {f : List Char → List Char}
    {left right : List Chunk} :
    (buffer.insertedLeft f left right).source = buffer.source := by
  rw [insertedLeft]
  split <;> rfl

theorem Buffer.insertedRight_source {buffer : Buffer} {f : List Char → List Char}
    {left right : List Chunk} :
    (buffer.insertedRight f left right).source = buffer.source := by
  cases right <;> rfl

theorem Accepted.source_eq {buffer next : Buffer} {operation : Operation}
    (h : Accepted buffer operation next) : next.source = buffer.source := by
  cases h with
  | append | prepend | nothing | range => rfl
  | left => exact Buffer.insertedLeft_source
  | right => exact Buffer.insertedRight_source

theorem Accepted.tiled {buffer next : Buffer} {operation : Operation}
    (h : Accepted buffer operation next) (ht : buffer.Tiled) : next.Tiled := by
  rw [Buffer.Tiled, h.source_eq]
  cases h with
  | append | prepend | nothing => exact ht
  | left _ hs _ _ hl hr => rw [hs]; exact Tiles.insertedLeft _ hl hr
  | right _ hs _ _ hl hr => rw [hs]; exact Tiles.insertedRight _ hl hr
  | range _ _ hs _ _ _ _ hl hi hr =>
      rw [hs, ← List.append_assoc]
      exact (hl.append (hi.replaceRow _ _)).append hr

/-! ## One edit covers its range -/

section EditedAt

variable {before text a b : List Char} {row left right : List Chunk} {byte offset : Nat}

/-- Both halves of a chunk are edited if it was. -/
theorem Cuts.editedAt_iff (h : Cuts offset row left right) :
    EditedAt (left ++ right) byte ↔ EditedAt row byte := by
  cases h with
  | edge => rfl
  | @inside left right chunk p q hs _ _ =>
      rw [Chunk.surrounds_iff] at hs
      have hcut : chunk.start ≤ byte ∧ byte < offset ∨ offset ≤ byte ∧ byte < chunk.stop ↔
          chunk.start ≤ byte ∧ byte < chunk.stop := by omega
      simp only [editedAt_append, editedAt_cons, Chunk.firstHalf, Chunk.secondHalf,
        ← hcut]
      have hnil : ¬ EditedAt [] byte := by simp [EditedAt]
      grind

theorem Tiles.exists_mem_iff (h : Tiles before text row) :
    (∃ chunk ∈ row, chunk.start ≤ byte ∧ byte < chunk.stop) ↔
      utf8Length before ≤ byte ∧ byte < utf8Length (before ++ text) := by
  induction h with
  | nil before =>
      simp only [List.not_mem_nil, false_and, exists_false, List.append_nil, false_iff]
      omega
  | @cons before piece behind chunk rest hc hrest ih =>
      have hpiece : utf8Length before ≤ utf8Length (before ++ piece) ∧
          utf8Length (before ++ piece) ≤ utf8Length (before ++ (piece ++ behind)) := by
        simp only [utf8Length_append]
        omega
      simp only [List.mem_cons, exists_eq_or_imp, ih, hc.start_eq, hc.stop_eq,
        List.append_assoc]
      omega

/-- All of a row that was replaced is edited. -/
theorem Tiles.editedAt_replaceRow (h : Tiles before text row) (content : List Char)
    (keep : Bool) :
    EditedAt (Edit.replaceRow content keep row) byte ↔
      utf8Length before ≤ byte ∧ byte < utf8Length (before ++ text) := by
  rw [← h.exists_mem_iff]
  cases row with
  | nil => simp [EditedAt, Edit.replaceRow]
  | cons chunk rest =>
      have hrest : EditedAt (rest.map (·.edit [] false)) byte ↔
          ∃ chunk ∈ rest, chunk.start ≤ byte ∧ byte < chunk.stop := by
        constructor
        · rintro ⟨_, hm, -, hrange⟩
          obtain ⟨chunk, hmem, rfl⟩ := List.mem_map.mp hm
          exact ⟨chunk, hmem, by simpa using hrange⟩
        · rintro ⟨chunk, hm, hrange⟩
          exact ⟨_, List.mem_map_of_mem hm, by simpa using hrange⟩
      simp [Edit.replaceRow, editedAt_cons, hrest]

theorem Tiles.editedAt_bounds (h : Tiles before text row) (he : EditedAt row byte) :
    utf8Length before ≤ byte ∧ byte < utf8Length (before ++ text) := by
  obtain ⟨chunk, hm, -, hrange⟩ := he
  exact h.exists_mem_iff.mp ⟨chunk, hm, hrange⟩

theorem editedAt_insertedLeft {buffer : Buffer} {f : List Char → List Char} :
    EditedAt (buffer.insertedLeft f left right).chunks byte ↔
      EditedAt (left ++ right) byte := by
  rcases List.eq_nil_or_concat left with rfl | ⟨init, chunk, rfl⟩
  · rfl
  · rw [List.concat_eq_append, Buffer.insertedLeft_concat, List.append_assoc]
    simp only [editedAt_append, editedAt_cons, List.cons_append, List.nil_append]

theorem editedAt_insertedRight {buffer : Buffer} {f : List Char → List Char} :
    EditedAt (buffer.insertedRight f left right).chunks byte ↔
      EditedAt (left ++ right) byte := by
  cases right with
  | nil => simp [Buffer.insertedRight]
  | cons chunk rest => simp only [Buffer.insertedRight, editedAt_append, editedAt_cons]

end EditedAt

/-- The bytes that an operation covers, if it edits a range. -/
def Operation.CoversByte (operation : Operation) (byte : Nat) : Prop :=
  ∃ start stop text keepInserts,
    operation.range? = some (start, stop, text, keepInserts) ∧
      start ≤ byte ∧ byte < stop

theorem Operation.CoversByte.iff_of_range {operation : Operation} {start stop byte : Nat}
    {text : List Char} {keepInserts : Bool}
    (h : operation.range? = some (start, stop, text, keepInserts)) :
    operation.CoversByte byte ↔ start ≤ byte ∧ byte < stop := by
  constructor
  · rintro ⟨_, _, _, _, hop, hrange⟩
    cases h.symm.trans hop
    exact hrange
  · exact fun hrange => ⟨start, stop, text, keepInserts, h, hrange⟩

theorem Operation.not_coversByte_of_left {operation : Operation} {byte : Nat}
    {insert : Nat × (List Char → List Char)}
    (h : operation.leftInsert? = some insert) : ¬ operation.CoversByte byte := by
  cases operation <;> simp_all [leftInsert?, CoversByte, range?]

theorem Operation.not_coversByte_of_right {operation : Operation} {byte : Nat}
    {insert : Nat × (List Char → List Char)}
    (h : operation.rightInsert? = some insert) : ¬ operation.CoversByte byte := by
  cases operation <;> simp_all [rightInsert?, CoversByte, range?]

theorem Accepted.editedAt_iff {buffer next : Buffer} {operation : Operation}
    (h : Accepted buffer operation next) (byte : Nat) :
    EditedAt next.chunks byte ↔
      EditedAt buffer.chunks byte ∨ operation.CoversByte byte := by
  cases h with
  | append | prepend => simp [Operation.CoversByte, Operation.range?]
  | nothing offset =>
      have hnot : ¬ (Operation.remove offset offset).CoversByte byte := by
        rw [Operation.CoversByte.iff_of_range rfl]
        omega
      simp [hnot]
  | left hop _ _ hcuts _ _ =>
      rw [editedAt_insertedLeft, hcuts.editedAt_iff]
      simp [Operation.not_coversByte_of_left hop]
  | right hop _ _ hcuts _ _ =>
      rw [editedAt_insertedRight, hcuts.editedAt_iff]
      simp [Operation.not_coversByte_of_right hop]
  | range hop _ _ h1 h2 hc1 hc2 hl hi hr =>
      rw [← hc1.editedAt_iff, Operation.CoversByte.iff_of_range hop, h1, h2]
      simp only [editedAt_append, hi.editedAt_replaceRow, ← hc2.editedAt_iff]
      have hinside : EditedAt _ byte → _ := hi.editedAt_bounds
      grind

/-! ## Histories -/

/-- The ranges of the range edits of a history that are accepted. -/
def Buffer.acceptedRanges (buffer : Buffer) : List Operation → List (Nat × Nat)
  | [] => []
  | operation :: rest =>
    let here :=
      match buffer.apply operation, operation.range? with
      | .ok _, some (start, stop, _) => [(start, stop)]
      | _, _ => []
    here ++ (buffer.perform operation).acceptedRanges rest

/-- Does one of some ranges cover a byte? -/
def covered (ranges : List (Nat × Nat)) (byte : Nat) : Bool :=
  ranges.any fun (start, stop) => decide (start ≤ byte) && decide (byte < stop)

theorem covered_append (ranges ranges' : List (Nat × Nat)) (byte : Nat) :
    covered (ranges ++ ranges') byte = (covered ranges byte || covered ranges' byte) :=
  List.any_append

namespace Buffer

theorem ofSource_tiled (source : List Char) : (ofSource source).Tiled := by
  rw [Tiled, ofSource]
  by_cases h : source = []
  · subst h
    exact .nil []
  · simp only [List.isEmpty_iff, if_neg h]
    exact .singleton ⟨h, rfl, rfl, fun _ => rfl⟩

variable {buffer : Buffer}

theorem source_perform (ht : buffer.Tiled) (operation : Operation) :
    (buffer.perform operation).source = buffer.source := by
  rcases apply_cases ht operation with ⟨_, _, h⟩ | ⟨_, next, _, h, hacc⟩
  · rw [h]
  · rw [h, hacc.source_eq]

theorem Tiled.perform (ht : buffer.Tiled) (operation : Operation) :
    (buffer.perform operation).Tiled := by
  rcases apply_cases ht operation with ⟨_, _, h⟩ | ⟨_, next, _, h, hacc⟩
  · rw [h]
    exact ht
  · rw [h]
    exact hacc.tiled ht

theorem Tiled.run (ht : buffer.Tiled) (history : List Operation) :
    (buffer.run history).Tiled := by
  induction history generalizing buffer with
  | nil => exact ht
  | cons operation rest ih => exact ih (ht.perform operation)

theorem source_run (ht : buffer.Tiled) (history : List Operation) :
    (buffer.run history).source = buffer.source := by
  induction history generalizing buffer with
  | nil => rfl
  | cons operation rest ih =>
      rw [← source_perform ht operation]
      exact ih (ht.perform operation)

/-- A byte is edited after a history if it was before or if the history covers it. -/
theorem editedAt_run (ht : buffer.Tiled) (history : List Operation) (byte : Nat) :
    EditedAt (buffer.run history).chunks byte ↔
      EditedAt buffer.chunks byte ∨
        covered (buffer.acceptedRanges history) byte = true := by
  induction history generalizing buffer with
  | nil => simp [Buffer.run, acceptedRanges, covered]
  | cons operation rest ih =>
      have hrest := ih (ht.perform operation)
      rw [show buffer.run (operation :: rest) = (buffer.perform operation).run rest
        from rfl, hrest, acceptedRanges, covered_append, Bool.or_eq_true]
      rcases apply_cases ht operation with
        ⟨_, ⟨refusal, _, hans⟩, h⟩ | ⟨_, next, hans, h, hacc⟩
      · simp [h, hans, covered]
      · rw [h, hans, hacc.editedAt_iff, or_assoc]
        refine or_congr_right (or_congr_left ?_)
        cases hop : operation.range? with
        | none => simp [Operation.CoversByte, hop, covered]
        | some range =>
            rw [Operation.CoversByte.iff_of_range hop]
            simp [covered]

end Buffer

/-! ## What the stored numbers say -/

/-- The chunks of a row divide a source between them. -/
structure Partition (source : List Char) (row : List Chunk) : Prop where
  eq_nil_iff : row = [] ↔ source = []
  start_of_head : ∀ chunk ∈ row.head?, chunk.start = 0
  stop_of_getLast : ∀ chunk ∈ row.getLast?, chunk.stop = utf8Length source
  adjacent : ∀ left chunk next right, row = left ++ chunk :: next :: right →
    chunk.stop = next.start
  start_lt_stop : ∀ chunk ∈ row, chunk.start < chunk.stop
  isBoundary_start : ∀ chunk ∈ row, Text.isBoundary chunk.start source = true
  isBoundary_stop : ∀ chunk ∈ row, Text.isBoundary chunk.stop source = true
  content_of_unedited : ∀ chunk ∈ row, chunk.isEdited = false →
    Text.slice? chunk.start chunk.stop source = some chunk.content

namespace Tiles

variable {before text : List Char} {row : List Chunk} {chunk : Chunk}

theorem start_of_head (h : Tiles before text row) (hm : chunk ∈ row.head?) :
    chunk.start = utf8Length before := by
  cases h with
  | nil => simp at hm
  | cons hc _ =>
      obtain rfl : _ = chunk := by simpa using hm
      exact hc.start_eq

theorem stop_of_getLast (h : Tiles before text row) (hm : chunk ∈ row.getLast?) :
    chunk.stop = utf8Length (before ++ text) := by
  obtain ⟨init, rfl⟩ := List.getLast?_eq_some_iff.mp hm
  obtain ⟨a, rest, rfl, _, hr⟩ := h.of_append
  obtain ⟨piece, b, rfl, hc, hnil⟩ := hr.of_cons
  obtain rfl : b = [] := by simpa using hnil.eq_nil_iff
  simpa using hc.stop_eq

theorem adjacent {left right : List Chunk} {next : Chunk}
    (h : Tiles before text (left ++ chunk :: next :: right)) :
    chunk.stop = next.start := by
  obtain ⟨a, rest, rfl, _, hr⟩ := h.of_append
  obtain ⟨piece, b, rfl, hc, hr⟩ := hr.of_cons
  obtain ⟨piece', b', rfl, hc', _⟩ := hr.of_cons
  rw [hc.stop_eq, hc'.start_eq]

theorem partition {source : List Char} (h : Tiles [] source row) :
    Partition source row where
  eq_nil_iff := h.eq_nil_iff
  start_of_head _ hm := h.start_of_head hm
  stop_of_getLast _ hm := h.stop_of_getLast hm
  adjacent _ _ _ _ hrow := (hrow ▸ h).adjacent
  start_lt_stop _ hm := h.start_lt_stop hm
  isBoundary_start chunk hm := by
    obtain ⟨a, piece, b, rfl, hc⟩ := h.covers_of_mem hm
    rw [hc.start_eq]
    exact Text.isBoundary_iff.mpr ⟨a, piece ++ b, by simp, rfl⟩
  isBoundary_stop chunk hm := by
    obtain ⟨a, piece, b, rfl, hc⟩ := h.covers_of_mem hm
    rw [hc.stop_eq]
    exact Text.isBoundary_iff.mpr ⟨a ++ piece, b, rfl, rfl⟩
  content_of_unedited chunk hm he := by
    obtain ⟨a, piece, b, rfl, hc⟩ := h.covers_of_mem hm
    rw [hc.start_eq, hc.stop_eq, hc.content_eq he]
    exact Text.slice?_append a piece b

end Tiles

/-- What is left of a source after any history of edits. The row divides the source
between characters, and a chunk shows its part unless it was edited. The bytes in edited
chunks are those that the accepted range edits covered. All other characters are
rendered once and in their order, and none is ever torn by a cut. -/
theorem partition_of_run (source : List Char) (history : List Operation) :
    let buffer := (Buffer.ofSource source).run history
    let ranges := (Buffer.ofSource source).acceptedRanges history
    buffer.source = source ∧
    Partition source buffer.chunks ∧
    (∀ byte, EditedAt buffer.chunks byte ↔ covered ranges byte = true) ∧
    buffer.traced.map Prod.fst = buffer.render ∧
    ofSource buffer.traced =
      (withOffsets 0 source).filter (fun x => !covered ranges x.2) ∧
    ∀ operation offset, buffer.apply operation ≠ .error (.torn offset) := by
  intro buffer ranges
  have ht0 := Buffer.ofSource_tiled source
  have hs : buffer.source = source := Buffer.source_run ht0 history
  have ht : buffer.Tiled := ht0.run history
  have htiles : Tiles [] source buffer.chunks := hs ▸ ht
  have hedited : ∀ byte, EditedAt buffer.chunks byte ↔ covered ranges byte = true := by
    intro byte
    have hnone : ¬ EditedAt (Buffer.ofSource source).chunks byte := by
      rw [Buffer.ofSource]
      split <;> simp [EditedAt, Chunk.ofSlice]
    rw [Buffer.editedAt_run ht0 history byte]
    simp [hnone, ranges]
  refine ⟨hs, htiles.partition, hedited, buffer.map_fst_traced, ?_, ?_⟩
  · have hkeeps (byte : Nat) : (!covered ranges byte) = true ↔
        ¬ EditedAt buffer.chunks byte := by
      rw [hedited]
      simp
    have hrow := htiles.ofSource_traced fun byte _ _ => hkeeps byte
    simpa [Buffer.traced, ofSource_append, ofSource_unplaced, Text.utf8Length] using hrow
  · intro operation offset
    rcases Buffer.apply_cases ht operation with
      ⟨_, ⟨refusal, hne, hans⟩, _⟩ | ⟨_, next, hans, _⟩
    · rw [hans]
      simpa using hne offset
    · rw [hans]
      simp

end ParseView.Edit
