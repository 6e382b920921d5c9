import ParseView.Proofs.EditTiling

/-!
# Where rendered characters come from

`Buffer.traced` is the edited text once more, with a note at each character: the offset
in the source at which it stands there, if a chunk that was never edited shows it, and
nothing at a character that was inserted or put in the place of others. Statements on
what becomes of the source read the notes; without the notes the same letter inserted
by hand would pass for the one it stands beside.
-/

namespace ParseView.Edit

open Text (utf8Length utf8Length_append)

/-- The characters of a text with their offsets, counted from `base`. -/
def withOffsets (base : Nat) : List Char → List (Char × Nat)
  | [] => []
  | c :: rest => (c, base) :: withOffsets (base + c.utf8Size) rest

/-- Characters that are not from the source. -/
def unplaced (text : List Char) : List (Char × Option Nat) := text.map (·, none)

/-- Characters of the source from an offset on. -/
def placed (base : Nat) (text : List Char) : List (Char × Option Nat) :=
  (withOffsets base text).map fun (c, offset) => (c, some offset)

def Chunk.traced (chunk : Chunk) : List (Char × Option Nat) :=
  unplaced chunk.intro
    ++ (if chunk.isEdited then unplaced chunk.content
      else placed chunk.start chunk.content)
    ++ unplaced chunk.outro

/-- The edited text, each character with its place in the source. -/
def Buffer.traced (buffer : Buffer) : List (Char × Option Nat) :=
  unplaced buffer.intro ++ buffer.chunks.flatMap Chunk.traced ++ unplaced buffer.outro

/-- The characters of a trace that have a place in the source, with their places. -/
def ofSource (trace : List (Char × Option Nat)) : List (Char × Nat) :=
  trace.filterMap fun (c, place) => place.map (c, ·)

/-! ## Offsets -/

theorem withOffsets_append (base : Nat) (a b : List Char) :
    withOffsets base (a ++ b) =
      withOffsets base a ++ withOffsets (base + utf8Length a) b := by
  induction a generalizing base with
  | nil => simp [withOffsets, Text.utf8Length]
  | cons c rest ih => simp [withOffsets, Text.utf8Length, ih, Nat.add_assoc]

theorem map_fst_withOffsets (base : Nat) (s : List Char) :
    (withOffsets base s).map Prod.fst = s := by
  induction s generalizing base with
  | nil => rfl
  | cons c rest ih => simp [withOffsets, ih]

theorem bounds_of_mem_withOffsets {base offset : Nat} {s : List Char} {c : Char}
    (h : (c, offset) ∈ withOffsets base s) :
    base ≤ offset ∧ offset < base + utf8Length s := by
  induction s generalizing base with
  | nil => simp [withOffsets] at h
  | cons d rest ih =>
      have hpos := d.utf8Size_pos
      rw [withOffsets, List.mem_cons, Prod.mk.injEq] at h
      rcases h with ⟨-, rfl⟩ | h
      · rw [Text.utf8Length]
        omega
      · have := ih h
        rw [Text.utf8Length]
        omega

/-! ## Parts of a trace -/

theorem map_fst_unplaced (s : List Char) : (unplaced s).map Prod.fst = s := by
  simp [unplaced, Function.comp_def]

theorem map_fst_placed (base : Nat) (s : List Char) :
    (placed base s).map Prod.fst = s := by
  simpa [placed, Function.comp_def] using map_fst_withOffsets base s

theorem ofSource_append (t u : List (Char × Option Nat)) :
    ofSource (t ++ u) = ofSource t ++ ofSource u :=
  List.filterMap_append

theorem ofSource_unplaced (s : List Char) : ofSource (unplaced s) = [] := by
  simp [ofSource, unplaced]

theorem ofSource_placed (base : Nat) (s : List Char) :
    ofSource (placed base s) = withOffsets base s := by
  rw [ofSource, placed, List.filterMap_map]
  exact List.filterMap_some

theorem Chunk.map_fst_traced (chunk : Chunk) :
    chunk.traced.map Prod.fst = chunk.render := by
  rw [Chunk.traced, Chunk.render]
  split <;> simp [map_fst_unplaced, map_fst_placed]

/-- Without its notes a trace is the edited text. -/
theorem Buffer.map_fst_traced (buffer : Buffer) :
    buffer.traced.map Prod.fst = buffer.render := by
  simp [Buffer.traced, Buffer.render, map_fst_unplaced, List.map_flatMap,
    Chunk.map_fst_traced]

theorem Chunk.ofSource_traced (chunk : Chunk) :
    ofSource chunk.traced =
      if chunk.isEdited then [] else withOffsets chunk.start chunk.content := by
  rw [Chunk.traced]
  split <;> simp [ofSource_append, ofSource_unplaced, ofSource_placed]

/-! ## What is left of the source -/

/-- A byte of the source lies in a chunk that was edited. -/
def EditedAt (row : List Chunk) (byte : Nat) : Prop :=
  ∃ chunk ∈ row, chunk.isEdited = true ∧ chunk.start ≤ byte ∧ byte < chunk.stop

theorem editedAt_cons {chunk : Chunk} {row : List Chunk} {byte : Nat} :
    EditedAt (chunk :: row) byte ↔
      (chunk.isEdited = true ∧ chunk.start ≤ byte ∧ byte < chunk.stop) ∨
        EditedAt row byte := by
  simp [EditedAt]

theorem editedAt_append {left right : List Chunk} {byte : Nat} :
    EditedAt (left ++ right) byte ↔ EditedAt left byte ∨ EditedAt right byte := by
  simp [EditedAt, or_and_right, exists_or]

/-- A row shows the characters of its text that lie in no edited chunk, each of them
once and in their order. -/
theorem Tiles.ofSource_traced {before text : List Char} {row : List Chunk}
    (h : Tiles before text row) {keeps : Nat → Bool}
    (hk : ∀ byte, utf8Length before ≤ byte → byte < utf8Length (before ++ text) →
      (keeps byte = true ↔ ¬ EditedAt row byte)) :
    ofSource (row.flatMap Chunk.traced) =
      (withOffsets (utf8Length before) text).filter fun x => keeps x.2 := by
  induction h with
  | nil before => rfl
  | @cons before piece behind chunk rest hc hrest ih =>
      -- A byte of the piece is edited exactly if the chunk is: the others begin behind it.
      have hpiece : ∀ byte, utf8Length before ≤ byte →
          byte < utf8Length (before ++ piece) →
          (keeps byte = true ↔ chunk.isEdited = false) := by
        intro byte hlo hhi
        have hrange : chunk.start ≤ byte ∧ byte < chunk.stop := by
          rw [hc.start_eq, hc.stop_eq]
          exact ⟨hlo, hhi⟩
        have hnot : ¬ EditedAt rest byte := by
          rintro ⟨other, hm, -, hle, -⟩
          have := hrest.le_start hm
          omega
        rw [hk byte hlo (by simp only [utf8Length_append] at hhi ⊢; omega), editedAt_cons]
        simp [hrange, hnot]
      have hbehind := ih fun byte hlo hhi => by
        have hle : utf8Length before ≤ byte := by
          rw [utf8Length_append] at hlo
          omega
        rw [hk byte hle (by simpa using hhi), editedAt_cons, hc.stop_eq]
        simp [Nat.not_lt.mpr hlo]
      rw [List.flatMap_cons, ofSource_append, hbehind, withOffsets_append,
        List.filter_append, ← utf8Length_append, Chunk.ofSource_traced]
      congr 1
      cases he : chunk.isEdited with
      | true =>
          refine (List.filter_eq_nil_iff.mpr ?_).symm
          rintro ⟨c, offset⟩ hm
          have hb := bounds_of_mem_withOffsets hm
          rw [hpiece offset hb.1 (by rw [utf8Length_append]; exact hb.2), he]
          exact Bool.noConfusion
      | false =>
          rw [hc.content_eq he, hc.start_eq]
          refine (List.filter_eq_self.mpr ?_).symm
          rintro ⟨c, offset⟩ hm
          have hb := bounds_of_mem_withOffsets hm
          exact (hpiece offset hb.1 (by rw [utf8Length_append]; exact hb.2)).mpr he

end ParseView.Edit
