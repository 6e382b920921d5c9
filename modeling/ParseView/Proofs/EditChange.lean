import ParseView.Proofs.EditInsert

/-!
# A buffer that was changed says so

Whether a buffer has changed is worked out from its row and from the texts at its ends, and
nothing in them remembers the edits that were made. Edits also take things back: a range
edit drops what was inserted inside its range, and a cut drops what stood behind a removed
chunk. Still the answer is one about the whole history, because whatever drops an inserted
text leaves an edited chunk behind, and no edit makes an edited chunk untouched again.
`Accepted.hasChanged_eq` says this of one edit, `Buffer.hasChanged_run` of a history.
-/

namespace ParseView.Edit

open Text (utf8Length)

/-! ## One edit -/

/-- Is a buffer changed by an operation that it accepts? By an insert it is unless the
text is empty, by a range edit unless the range is. -/
def Operation.changes : Operation → Bool
  | .append text | .prepend text | .appendLeft _ text | .prependLeft _ text
  | .appendRight _ text | .prependRight _ text => !text.isEmpty
  | .overwrite start stop _ | .update start stop _ | .remove start stop =>
    decide (start < stop)

section Operation

variable {operation : Operation} {offset start stop : Nat} {text : List Char}
  {keepInserts : Bool} {f : List Char → List Char}

theorem Operation.changes_of_left (h : operation.leftInsert? = some (offset, f)) :
    ∃ text, Inserts f text ∧ operation.changes = !text.isEmpty := by
  cases operation with
  | appendLeft place text =>
      obtain ⟨-, rfl⟩ := Prod.mk.inj (Option.some.inj h)
      exact ⟨text, .inl rfl, rfl⟩
  | prependLeft place text =>
      obtain ⟨-, rfl⟩ := Prod.mk.inj (Option.some.inj h)
      exact ⟨text, .inr rfl, rfl⟩
  | _ => exact nomatch h

theorem Operation.changes_of_right (h : operation.rightInsert? = some (offset, f)) :
    ∃ text, Inserts f text ∧ operation.changes = !text.isEmpty := by
  cases operation with
  | appendRight place text =>
      obtain ⟨-, rfl⟩ := Prod.mk.inj (Option.some.inj h)
      exact ⟨text, .inl rfl, rfl⟩
  | prependRight place text =>
      obtain ⟨-, rfl⟩ := Prod.mk.inj (Option.some.inj h)
      exact ⟨text, .inr rfl, rfl⟩
  | _ => exact nomatch h

theorem Operation.changes_of_range
    (h : operation.range? = some (start, stop, text, keepInserts)) :
    operation.changes = decide (start < stop) := by
  cases operation <;> simp_all [range?, changes]

end Operation

theorem Inserts.isEmpty_eq {f : List Char → List Char} {text : List Char}
    (h : Inserts f text) (held : List Char) :
    (f held).isEmpty = (held.isEmpty && text.isEmpty) := by
  rcases h with rfl | rfl <;> cases held <;> cases text <;> rfl

/-- A cut touches nothing: what one half loses, the other one takes, and what both lose
stood behind an edited chunk. -/
theorem Cuts.all_isUntouched {offset : Nat} {row left right : List Chunk}
    (h : Cuts offset row left right) :
    (left ++ right).all Chunk.isUntouched = row.all Chunk.isUntouched := by
  cases h with
  | edge => rfl
  | @inside left right chunk p q _ _ _ =>
      have hhalves : ((chunk.firstHalf offset p).isUntouched &&
          (chunk.secondHalf offset q).isUntouched) = chunk.isUntouched := by
        cases he : chunk.isEdited <;>
          simp [Chunk.isUntouched, Chunk.firstHalf, Chunk.secondHalf, he]
      simp [← hhalves, Bool.and_assoc]

section Buffer

variable {buffer : Buffer} {f : List Char → List Char} {text : List Char}
  {left inside right : List Chunk}

theorem Buffer.hasChanged_insertedLeft (hf : Inserts f text)
    (hrow : (left ++ right).all Chunk.isUntouched = buffer.chunks.all Chunk.isUntouched) :
    (buffer.insertedLeft f left right).hasChanged = (buffer.hasChanged || !text.isEmpty) := by
  rw [show buffer.hasChanged = (!buffer.intro.isEmpty || !buffer.outro.isEmpty ||
    !buffer.chunks.all Chunk.isUntouched) from rfl, ← hrow]
  rcases List.eq_nil_or_concat left with rfl | ⟨init, chunk, rfl⟩
  · simp only [Buffer.insertedLeft_nil, Buffer.hasChanged, hf.isEmpty_eq, List.nil_append,
      Bool.not_and, Bool.or_assoc, Bool.or_left_comm, Bool.or_comm]
  · rw [List.concat_eq_append, Buffer.insertedLeft_concat]
    simp only [Buffer.hasChanged, Chunk.isUntouched, hf.isEmpty_eq, List.all_append,
      List.all_cons, List.all_nil, Bool.and_true, Bool.not_and, Bool.not_not, Bool.or_assoc,
      Bool.or_left_comm, Bool.or_comm]

theorem Buffer.hasChanged_insertedRight (hf : Inserts f text)
    (hrow : (left ++ right).all Chunk.isUntouched = buffer.chunks.all Chunk.isUntouched) :
    (buffer.insertedRight f left right).hasChanged =
      (buffer.hasChanged || !text.isEmpty) := by
  rw [show buffer.hasChanged = (!buffer.intro.isEmpty || !buffer.outro.isEmpty ||
    !buffer.chunks.all Chunk.isUntouched) from rfl, ← hrow]
  cases right with
  | nil =>
      simp only [Buffer.insertedRight, Buffer.hasChanged, hf.isEmpty_eq, List.append_nil,
        Bool.not_and, Bool.or_left_comm, Bool.or_comm]
  | cons chunk rest =>
      simp only [Buffer.insertedRight, Buffer.hasChanged, Chunk.isUntouched, hf.isEmpty_eq,
        List.all_append, List.all_cons, Bool.not_and, Bool.not_not, Bool.or_assoc,
        Bool.or_left_comm, Bool.or_comm]

/-- A range that is not empty has a first chunk, and that is edited. -/
theorem Buffer.hasChanged_replaceRow {a m : List Char} (keepInserts : Bool)
    (hi : Tiles a m inside) (hm : m ≠ []) :
    ({ buffer with chunks := left ++ replaceRow text keepInserts inside ++ right } :
      Buffer).hasChanged = true := by
  cases inside with
  | nil => exact absurd (hi.eq_nil_iff.mp rfl) hm
  | cons chunk rest => simp [Buffer.hasChanged, replaceRow, Chunk.isUntouched]

end Buffer

/-- An accepted edit changes a buffer for good or leaves it as changed as it was. -/
theorem Accepted.hasChanged_eq {buffer next : Buffer} {operation : Operation}
    (h : Accepted buffer operation next) :
    next.hasChanged = (buffer.hasChanged || operation.changes) := by
  cases h with
  | append text =>
      have hf : Inserts (· ++ text) text := .inl rfl
      simp only [Buffer.hasChanged, Operation.changes, hf.isEmpty_eq, Bool.not_and,
        Bool.or_left_comm, Bool.or_comm]
  | prepend text =>
      have hf : Inserts (text ++ ·) text := .inr rfl
      simp only [Buffer.hasChanged, Operation.changes, hf.isEmpty_eq, Bool.not_and,
        Bool.or_assoc, Bool.or_left_comm, Bool.or_comm]
  | nothing offset => simp [Operation.changes]
  | left hop _ _ hcuts _ _ =>
      obtain ⟨text, hf, hchanges⟩ := Operation.changes_of_left hop
      rw [hchanges, Buffer.hasChanged_insertedLeft hf hcuts.all_isUntouched]
  | right hop _ _ hcuts _ _ =>
      obtain ⟨text, hf, hchanges⟩ := Operation.changes_of_right hop
      rw [hchanges, Buffer.hasChanged_insertedRight hf hcuts.all_isUntouched]
  | @range _ _ _ _ _ _ m _ _ _ _ _ hop hlt _ h1 h2 _ _ _ hi _ =>
      have hm : m ≠ [] := by
        rintro rfl
        rw [List.append_nil] at h2
        omega
      rw [Operation.changes_of_range hop, decide_eq_true hlt, Bool.or_true,
        Buffer.hasChanged_replaceRow _ hi hm]

/-! ## Histories -/

/-- In a history there is an operation that was accepted and changed the buffer. -/
def Buffer.ChangedBy (buffer : Buffer) (history : List Operation) : Prop :=
  ∃ before operation after, history = before ++ operation :: after ∧
    operation.changes = true ∧ ∃ next, (buffer.run before).apply operation = .ok next

namespace Buffer

variable {buffer : Buffer}

theorem changedBy_cons {operation : Operation} {rest : List Operation} :
    buffer.ChangedBy (operation :: rest) ↔
      (operation.changes = true ∧ ∃ next, buffer.apply operation = .ok next) ∨
        (buffer.perform operation).ChangedBy rest := by
  constructor
  · rintro ⟨before, changing, after, hsplit, hchanges, hans⟩
    cases before with
    | nil =>
        obtain ⟨rfl, rfl⟩ := List.cons.inj hsplit
        exact .inl ⟨hchanges, hans⟩
    | cons first before =>
        obtain ⟨rfl, rfl⟩ := List.cons.inj hsplit
        exact .inr ⟨before, changing, after, rfl, hchanges, hans⟩
  · rintro (⟨hchanges, hans⟩ | ⟨before, changing, after, rfl, hchanges, hans⟩)
    · exact ⟨[], operation, rest, rfl, hchanges, hans⟩
    · exact ⟨operation :: before, changing, after, rfl, hchanges, hans⟩

theorem hasChanged_perform (ht : buffer.Tiled) (operation : Operation) :
    (buffer.perform operation).hasChanged = true ↔
      buffer.hasChanged = true ∨
        (operation.changes = true ∧ ∃ next, buffer.apply operation = .ok next) := by
  rcases apply_cases ht operation with ⟨_, ⟨refusal, _, hans⟩, h⟩ | ⟨_, next, hans, h, hacc⟩
  · simp [h, hans]
  · rw [h, hacc.hasChanged_eq, hans]
    simp

/-- A buffer has changed after a history if it had before or the history changed it. -/
theorem hasChanged_run (ht : buffer.Tiled) (history : List Operation) :
    (buffer.run history).hasChanged = true ↔
      buffer.hasChanged = true ∨ buffer.ChangedBy history := by
  induction history generalizing buffer with
  | nil => simp [Buffer.run, ChangedBy]
  | cons operation rest ih =>
      rw [show buffer.run (operation :: rest) = (buffer.perform operation).run rest from rfl,
        ih (ht.perform operation), hasChanged_perform ht, changedBy_cons, or_assoc]

end Buffer

theorem Tiles.render_of_untouched {before text : List Char} {row : List Chunk}
    (h : Tiles before text row) (hu : ∀ chunk ∈ row, chunk.isUntouched = true) :
    row.flatMap Chunk.render = text := by
  induction h with
  | nil before => rfl
  | @cons before piece behind chunk rest hc _ ih =>
      obtain ⟨⟨he, hintro⟩, houtro⟩ : (chunk.isEdited = false ∧ chunk.intro = []) ∧
          chunk.outro = [] := by simpa [Chunk.isUntouched] using hu chunk (by simp)
      rw [List.flatMap_cons, ih fun other hm => hu other (by simp [hm]), Chunk.render, hintro,
        houtro, hc.content_eq he, List.nil_append, List.append_nil]

/-- A buffer that has not changed shows its source. -/
theorem Buffer.render_of_not_hasChanged {buffer : Buffer} (ht : buffer.Tiled)
    (h : buffer.hasChanged = false) : buffer.render = buffer.source := by
  obtain ⟨⟨hintro, houtro⟩, hrow⟩ : (buffer.intro = [] ∧ buffer.outro = []) ∧
      ∀ chunk ∈ buffer.chunks, chunk.isUntouched = true := by
    simpa [Buffer.hasChanged] using h
  rw [Buffer.render, hintro, houtro, Tiles.render_of_untouched ht hrow, List.nil_append,
    List.append_nil]

theorem utf8Length_eq_utf8ByteSize (s : List Char) :
    utf8Length s = (String.ofList s).utf8ByteSize := by
  induction s with
  | nil => rfl
  | cons c rest ih =>
      rw [utf8Length, ih, String.ofList_cons, String.utf8ByteSize_append,
        String.utf8ByteSize_singleton]

/-- What a buffer says of itself after any history. It has changed exactly if the history
has an accepted insert of some text or an accepted edit of some range in it, whatever came
afterwards, and it stays so. If it has not, its text is the source. Its length is the
number of bytes of its text, and it is empty if there is none. -/
theorem changed_iff_and_length (source : List Char) (history : List Operation) :
    let buffer := (Buffer.ofSource source).run history
    (buffer.hasChanged = true ↔ (Buffer.ofSource source).ChangedBy history) ∧
    (∀ further, buffer.hasChanged = true → (buffer.run further).hasChanged = true) ∧
    (buffer.hasChanged = false → buffer.render = source) ∧
    buffer.length = (String.ofList buffer.render).utf8ByteSize ∧
    (buffer.isEmpty = true ↔ buffer.render = []) := by
  intro buffer
  have ht0 := Buffer.ofSource_tiled source
  have ht : buffer.Tiled := ht0.run history
  have hnew : (Buffer.ofSource source).hasChanged = false := by
    rw [Buffer.ofSource]
    split <;> simp [Buffer.hasChanged, Chunk.isUntouched, Chunk.ofSlice]
  refine ⟨?_, ?_, ?_, ?_, ?_⟩
  · rw [Buffer.hasChanged_run ht0, hnew]
    simp
  · intro further hchanged
    exact (Buffer.hasChanged_run ht further).mpr (.inl hchanged)
  · intro hsame
    rw [Buffer.render_of_not_hasChanged ht hsame, Buffer.source_run ht0 history]
    rfl
  · rw [Buffer.length_eq, utf8Length_eq_utf8ByteSize]
  · rw [Buffer.isEmpty, beq_iff_eq, Buffer.length_eq, Text.utf8Length_eq_zero]

/-- A buffer can have changed and show its source all the same. -/
example :
    let buffer := (Buffer.ofSource ['a']).run [.appendLeft 1 ['x'], .overwrite 0 1 ['a']]
    buffer.render = ['a'] ∧ buffer.hasChanged = true := by decide +kernel

end ParseView.Edit
