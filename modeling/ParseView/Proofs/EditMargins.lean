import ParseView.Proofs.EditHistory

/-!
# Inserts, offset by offset

As long as nothing but inserts is done to a buffer, its text can be told without any
row: at each offset between characters stands what was inserted to the left of it, then
what was inserted to the right of it, then the next character of the source. `Margins`
keeps these texts by side and offset, `Margins.layOut` lays them out, and an insert
changes one of them.

The buffer keeps each of the texts in one of four places, in front of the row, at
either end of a chunk or behind the row, and a cut moves texts that are there already.
`Buffer.Shows` says where each of them is: a chunk holds the texts at its own two edges,
and inside a chunk there are none. Two rows of one source that show the same margins
and are cut at the same offsets are the same row (`Tiles.eq_of_shows`), which is why
inserts at different places can be done in either order.
-/

namespace ParseView.Edit

open Text (utf8Length utf8Length_append utf8Length_pos)

/-! ## The texts at each offset -/

/-- The sides of an offset that text can be inserted on. -/
inductive Side where
  | left
  | right
deriving DecidableEq, Repr

/-- The texts inserted at each offset of a source, on either side. -/
abbrev Margins := Side → Nat → List Char

namespace Margins

def empty : Margins := fun _ _ => []

/-- Changes the text on one side of one offset. -/
def change (margins : Margins) (side : Side) (offset : Nat)
    (f : List Char → List Char) : Margins :=
  fun side' offset' =>
    if side' = side ∧ offset' = offset then f (margins side offset)
    else margins side' offset'

/-- A text that begins at `base`, with the margins before its characters and behind the
last one. -/
def layOut (margins : Margins) (base : Nat) : List Char → List Char
  | [] => margins .left base ++ margins .right base
  | c :: rest =>
    margins .left base ++ margins .right base
      ++ c :: margins.layOut (base + c.utf8Size) rest

end Margins

/-- The side and the offset of an insert into a source of some length, and what it does
to the text there. Whatever goes in front of everything or behind everything goes to the
left of the first offset or to the right of the last one. -/
def Operation.insertion? (length : Nat) :
    Operation → Option (Side × Nat × (List Char → List Char))
  | .append text => some (.right, length, (· ++ text))
  | .prepend text => some (.left, 0, (text ++ ·))
  | .appendLeft offset text => some (.left, offset, (· ++ text))
  | .prependLeft offset text => some (.left, offset, (text ++ ·))
  | .appendRight offset text => some (.right, offset, (· ++ text))
  | .prependRight offset text => some (.right, offset, (text ++ ·))
  | .overwrite .. | .update .. | .remove .. => none

def Operation.place? (length : Nat) (operation : Operation) : Option (Side × Nat) :=
  (operation.insertion? length).map fun (side, offset, _) => (side, offset)

def Margins.add (length : Nat) (margins : Margins) (operation : Operation) : Margins :=
  match operation.insertion? length with
  | some (side, offset, f) => margins.change side offset f
  | none => margins

/-- The operations of a history that are accepted, in their order. -/
def Buffer.accepted (buffer : Buffer) : List Operation → List Operation
  | [] => []
  | operation :: rest =>
    let here :=
      match buffer.apply operation with
      | .ok _ => [operation]
      | .error _ => []
    here ++ (buffer.perform operation).accepted rest

section Margins

variable {margins : Margins} {side side' : Side} {offset offset' base : Nat}
  {f g : List Char → List Char}

@[simp] theorem Margins.change_self :
    margins.change side offset f side offset = f (margins side offset) :=
  if_pos ⟨rfl, rfl⟩

theorem Margins.change_of_offset_ne (h : offset' ≠ offset) :
    margins.change side offset f side' offset' = margins side' offset' :=
  if_neg fun hp => h hp.2

theorem Margins.change_of_side_ne (h : side' ≠ side) :
    margins.change side offset f side' offset' = margins side' offset' :=
  if_neg fun hp => h hp.1

theorem Margins.change_comm (h : (side, offset) ≠ (side', offset')) :
    (margins.change side offset f).change side' offset' g =
      (margins.change side' offset' g).change side offset f := by
  have hne : ¬ (side = side' ∧ offset = offset') := by
    rintro ⟨rfl, rfl⟩
    exact h rfl
  funext s o
  simp only [Margins.change]
  grind

/-- A piece of a text stays in one if nothing was inserted inside it. -/
theorem Margins.layOut_piece {piece : List Char} (hne : piece ≠ [])
    (h : ∀ side offset, base < offset → offset < base + utf8Length piece →
      margins side offset = []) (behind : List Char) :
    margins.layOut base (piece ++ behind) =
      margins .left base ++ margins .right base ++ piece
        ++ margins.layOut (base + utf8Length piece) behind := by
  induction piece generalizing base with
  | nil => exact absurd rfl hne
  | cons c rest ih =>
      rw [List.cons_append, layOut, utf8Length]
      by_cases hrest : rest = []
      · simp [hrest, utf8Length]
      · have hpos := c.utf8Size_pos
        have hlen := utf8Length_pos hrest
        have hnil : ∀ side, margins side (base + c.utf8Size) = [] := fun side =>
          h side _ (by omega) (by rw [utf8Length]; omega)
        rw [ih hrest fun side offset hlo hhi =>
          h side offset (by omega) (by rw [utf8Length]; omega)]
        simp [hnil, Nat.add_assoc]

end Margins

/-! ## Rows that show margins -/

/-- A chunk holds the texts at its edges, and inside it there are none. -/
structure Chunk.Shows (margins : Margins) (chunk : Chunk) : Prop where
  isEdited_eq : chunk.isEdited = false
  intro_eq : chunk.intro = margins .right chunk.start
  outro_eq : chunk.outro = margins .left chunk.stop
  inside : ∀ side offset, chunk.surrounds offset = true → margins side offset = []

/-- The row of a buffer shows the margins between its chunks, and the texts around the
row are those at the ends of the source. -/
structure Buffer.Shows (margins : Margins) (buffer : Buffer) : Prop where
  tiled : buffer.Tiled
  intro_eq : buffer.intro = margins .left 0
  outro_eq : buffer.outro = margins .right (utf8Length buffer.source)
  row : ∀ chunk ∈ buffer.chunks, chunk.Shows margins

/-- An offset at which a row is not cut. -/
def Inside (row : List Chunk) (offset : Nat) : Prop :=
  ∃ chunk ∈ row, chunk.surrounds offset = true

section Rows

variable {margins : Margins} {before text a b : List Char}
  {row row' left right : List Chunk} {chunk : Chunk} {offset : Nat}

theorem inside_append : Inside (left ++ right) offset ↔
    Inside left offset ∨ Inside right offset := by
  simp [Inside, or_and_right, exists_or]

theorem inside_cons : Inside (chunk :: row) offset ↔
    chunk.surrounds offset = true ∨ Inside row offset := by
  simp [Inside]

theorem Tiles.inside_bounds (h : Tiles before text row) (hi : Inside row offset) :
    utf8Length before < offset ∧ offset < utf8Length (before ++ text) := by
  obtain ⟨chunk, hm, hs⟩ := hi
  rw [Chunk.surrounds_iff] at hs
  have h1 := h.le_start hm
  have h2 := h.stop_le hm
  omega

theorem not_inside_edge (hl : Tiles before a left) (hr : Tiles (before ++ a) b right) :
    ¬ Inside (left ++ right) (utf8Length (before ++ a)) := by
  rintro ⟨chunk, hm, hs⟩
  rw [not_surrounds_of_edge hl hr hm] at hs
  exact Bool.noConfusion hs

theorem not_surrounds_of_split (hl : Tiles [] a left) (hr : Tiles a b right)
    (hm : chunk ∈ left ++ right) : chunk.surrounds (utf8Length a) = false := by
  have hfalse := not_surrounds_of_edge hl (by simpa using hr) hm
  rwa [List.nil_append] at hfalse

/-- Behind the first chunk, the rest of a row is cut where the row is. -/
theorem Tiles.inside_rest {piece behind : List Char} (hc : chunk.Covers before piece)
    (h : Tiles (before ++ piece) behind row) :
    Inside row offset ↔ chunk.stop < offset ∧ Inside (chunk :: row) offset := by
  constructor
  · intro hi
    have hlt := (h.inside_bounds hi).1
    rw [← hc.stop_eq] at hlt
    exact ⟨hlt, inside_cons.mpr (.inr hi)⟩
  · rintro ⟨hlt, hi⟩
    refine (inside_cons.mp hi).resolve_left fun hs => ?_
    rw [Chunk.surrounds_iff] at hs
    omega

/-- What a row renders, together with the texts at its two ends. -/
theorem Tiles.layOut_eq (h : Tiles before text row)
    (hs : ∀ chunk ∈ row, chunk.Shows margins) :
    margins.layOut (utf8Length before) text =
      margins .left (utf8Length before) ++ row.flatMap Chunk.render
        ++ margins .right (utf8Length (before ++ text)) := by
  induction h with
  | nil before => simp [Margins.layOut]
  | @cons before piece behind chunk rest hc hrest ih =>
      have hchunk := hs chunk (by simp)
      have hnone : ∀ side offset, utf8Length before < offset →
          offset < utf8Length before + utf8Length piece → margins side offset = [] := by
        intro side offset hlo hhi
        refine hchunk.inside side offset ?_
        rw [Chunk.surrounds_iff, hc.start_eq, hc.stop_eq, utf8Length_append]
        exact ⟨hlo, hhi⟩
      rw [Margins.layOut_piece hc.ne_nil hnone, ← utf8Length_append,
        ih fun other hm => hs other (by simp [hm]), List.flatMap_cons, Chunk.render,
        hchunk.intro_eq, hchunk.outro_eq, hc.content_eq hchunk.isEdited_eq, hc.start_eq,
        hc.stop_eq]
      simp

theorem Buffer.Shows.render_eq {buffer : Buffer} (h : buffer.Shows margins) :
    buffer.render = margins.layOut 0 buffer.source := by
  have hrow := h.tiled.layOut_eq h.row
  rw [show utf8Length [] = 0 from rfl, List.nil_append] at hrow
  rw [hrow, Buffer.render, h.intro_eq, h.outro_eq]

/-- The first chunks of two rows cut at the same offsets end at the same place. -/
theorem Tiles.piece_eq {piece piece' behind behind' : List Char} {chunk' : Chunk}
    (hc : chunk.Covers before piece) (hc' : chunk'.Covers before piece')
    (hrow : Tiles (before ++ piece) behind row)
    (htext : piece ++ behind = piece' ++ behind')
    (hinside : Inside (chunk' :: row') (utf8Length (before ++ piece)) →
      Inside (chunk :: row) (utf8Length (before ++ piece))) :
    ∃ m, piece = piece' ++ m := by
  rcases List.append_eq_append_iff.mp htext with ⟨m, rfl, -⟩ | ⟨m, rfl, -⟩
  · by_cases hm : m = []
    · exact ⟨[], by simp [hm]⟩
    · -- The longer chunk goes on behind an edge of the other row.
      have hpos := utf8Length_pos hm
      have hlt := utf8Length_pos hc.ne_nil
      have hs : chunk'.surrounds (utf8Length (before ++ piece)) = true := by
        rw [Chunk.surrounds_iff, hc'.start_eq, hc'.stop_eq]
        simp only [utf8Length_append]
        omega
      have hedge : ¬ Inside ([chunk] ++ row) (utf8Length (before ++ piece)) :=
        not_inside_edge (.singleton hc) hrow
      exact absurd (hinside (inside_cons.mpr (.inl hs))) hedge
  · exact ⟨m, rfl⟩

theorem Chunk.eq_of_shows {piece : List Char} {chunk' : Chunk} (hc : chunk.Covers before piece)
    (hc' : chunk'.Covers before piece) (h : chunk.Shows margins) (h' : chunk'.Shows margins) :
    chunk = chunk' := by
  have hstart : chunk.start = chunk'.start := hc.start_eq.trans hc'.start_eq.symm
  have hstop : chunk.stop = chunk'.stop := hc.stop_eq.trans hc'.stop_eq.symm
  have hcontent : chunk.content = chunk'.content :=
    (hc.content_eq h.isEdited_eq).trans (hc'.content_eq h'.isEdited_eq).symm
  have hintro : chunk.intro = chunk'.intro := by rw [h.intro_eq, h'.intro_eq, hstart]
  have houtro : chunk.outro = chunk'.outro := by rw [h.outro_eq, h'.outro_eq, hstop]
  have hedited : chunk.isEdited = chunk'.isEdited := h.isEdited_eq.trans h'.isEdited_eq.symm
  cases chunk
  cases chunk'
  exact (Chunk.mk.injEq ..).mpr ⟨hstart, hstop, hcontent, hintro, houtro, hedited⟩

/-- A row is known from its text, its margins and the offsets at which it is cut. -/
theorem Tiles.eq_of_shows (h : Tiles before text row) (h' : Tiles before text row')
    (hs : ∀ chunk ∈ row, chunk.Shows margins)
    (hs' : ∀ chunk ∈ row', chunk.Shows margins)
    (hinside : ∀ offset, Inside row offset ↔ Inside row' offset) : row = row' := by
  induction h generalizing row' with
  | nil before => exact (h'.eq_nil_iff.mpr rfl).symm
  | @cons before piece behind chunk rest hc hrest ih =>
      cases row' with
      | nil =>
          have hnil := h'.eq_nil_iff.mp rfl
          simp [hc.ne_nil] at hnil
      | cons chunk' rest' =>
          obtain ⟨piece', behind', htext, hc', hrest'⟩ := h'.of_cons
          -- Each first chunk ends where the other row is cut, so they cover one piece.
          obtain ⟨m, rfl⟩ := Tiles.piece_eq hc hc' hrest htext (hinside _).mpr
          obtain ⟨m', hm'⟩ := Tiles.piece_eq hc' hc hrest' htext.symm (hinside _).mp
          obtain rfl : m = [] := by
            have hlen := congrArg List.length hm'
            simp only [List.length_append] at hlen
            exact List.length_eq_zero_iff.mp (by omega)
          rw [List.append_nil] at *
          obtain rfl : behind = behind' := List.append_cancel_left htext
          obtain rfl : chunk = chunk' :=
            Chunk.eq_of_shows hc hc' (hs chunk (by simp)) (hs' chunk' (by simp))
          congr 1
          refine ih hrest' (fun other hm => hs other (by simp [hm]))
            (fun other hm => hs' other (by simp [hm])) fun offset => ?_
          rw [hrest.inside_rest hc, hrest'.inside_rest hc', hinside]

end Rows

theorem Buffer.eq_of_shows {margins : Margins} {buffer buffer' : Buffer}
    (h : buffer.Shows margins) (h' : buffer'.Shows margins)
    (hsource : buffer.source = buffer'.source)
    (hinside : ∀ offset, Inside buffer.chunks offset ↔ Inside buffer'.chunks offset) :
    buffer = buffer' := by
  have ht : Tiles [] buffer.source buffer'.chunks := hsource ▸ h'.tiled
  have hchunks := h.tiled.eq_of_shows ht h.row h'.row hinside
  have hintro := h.intro_eq.trans h'.intro_eq.symm
  have houtro := h.outro_eq.trans ((congrArg _ (congrArg _ hsource)).trans h'.outro_eq.symm)
  cases buffer
  cases buffer'
  simp_all

/-! ## One insert -/

section Change

variable {margins : Margins} {side : Side} {a b : List Char} {row left right : List Chunk}
  {chunk : Chunk} {offset offset' : Nat} {f : List Char → List Char} {buffer : Buffer}

/-- A change that is not at an edge of a chunk leaves the chunk as it is. -/
theorem Chunk.Shows.change (h : chunk.Shows margins)
    (hinside : chunk.surrounds offset = false)
    (hstop : side = .left → chunk.stop ≠ offset)
    (hstart : side = .right → chunk.start ≠ offset) :
    chunk.Shows (margins.change side offset f) where
  isEdited_eq := h.isEdited_eq
  intro_eq := by
    rw [h.intro_eq, Margins.change, if_neg]
    rintro ⟨hside, ho⟩
    exact hstart hside.symm ho
  outro_eq := by
    rw [h.outro_eq, Margins.change, if_neg]
    rintro ⟨hside, ho⟩
    exact hstop hside.symm ho
  inside side' offset' hs := by
    have hne : offset' ≠ offset := by
      rintro rfl
      rw [hinside] at hs
      exact Bool.noConfusion hs
    rw [Margins.change_of_offset_ne hne, h.inside side' offset' hs]

theorem Chunk.Shows.changeOutro (h : chunk.Shows margins) (ho : chunk.stop = offset) :
    { chunk with outro := f chunk.outro : Chunk }.Shows (margins.change .left offset f) := by
  subst ho
  refine ⟨h.isEdited_eq, ?_, ?_, fun side offset hs => ?_⟩
  · rw [Margins.change_of_side_ne (by decide)]
    exact h.intro_eq
  · rw [Margins.change_self, h.outro_eq]
  · rw [Margins.change_of_offset_ne, h.inside side offset hs]
    exact Nat.ne_of_lt (Chunk.surrounds_iff.mp hs).2

theorem Chunk.Shows.changeIntro (h : chunk.Shows margins) (ho : chunk.start = offset) :
    { chunk with intro := f chunk.intro : Chunk }.Shows (margins.change .right offset f) := by
  subst ho
  refine ⟨h.isEdited_eq, ?_, ?_, fun side offset hs => ?_⟩
  · rw [Margins.change_self, h.intro_eq]
  · rw [Margins.change_of_side_ne (by decide)]
    exact h.outro_eq
  · rw [Margins.change_of_offset_ne, h.inside side offset hs]
    exact Nat.ne_of_gt (Chunk.surrounds_iff.mp hs).1

/-- A cut finds no text at its offset, and leaves none. -/
theorem Cuts.shows (h : Cuts offset row left right)
    (hs : ∀ chunk ∈ row, chunk.Shows margins) :
    ∀ chunk ∈ left ++ right, chunk.Shows margins := by
  cases h with
  | edge => exact hs
  | @inside left right chunk p q hsur _ _ =>
      obtain ⟨hedited, hintro, houtro, hinside⟩ := hs chunk (by simp)
      have hnone : ∀ side, margins side offset = [] := fun side => hinside side offset hsur
      rw [Chunk.surrounds_iff] at hsur
      have hfirst : (chunk.firstHalf offset p).Shows margins := by
        refine ⟨hedited, hintro, (hnone .left).symm, fun side offset' hs => ?_⟩
        rw [Chunk.surrounds_iff] at hs
        refine hinside side offset' (Chunk.surrounds_iff.mpr ⟨hs.1, ?_⟩)
        exact Nat.lt_trans hs.2 hsur.2
      have hsecond : (chunk.secondHalf offset q).Shows margins := by
        refine ⟨hedited, (hnone .right).symm, ?_, fun side offset' hs => ?_⟩
        · simpa [Chunk.secondHalf, hedited] using houtro
        · rw [Chunk.surrounds_iff] at hs
          refine hinside side offset' (Chunk.surrounds_iff.mpr ⟨?_, hs.2⟩)
          exact Nat.lt_trans hsur.1 hs.1
      intro other hm
      have hcases : other ∈ left ∨ other = chunk.firstHalf offset p ∨
          other = chunk.secondHalf offset q ∨ other ∈ right := by simpa using hm
      rcases hcases with hm | rfl | rfl | hm
      · exact hs other (by simp [hm])
      · exact hfirst
      · exact hsecond
      · exact hs other (by simp [hm])

/-- A cut adds its offset to those at which the row is cut. -/
theorem Cuts.inside_iff (h : Cuts (utf8Length a) row left right) (hl : Tiles [] a left)
    (hr : Tiles a b right) :
    Inside (left ++ right) offset' ↔ offset' ≠ utf8Length a ∧ Inside row offset' := by
  have hedge : Inside (left ++ right) offset' → offset' ≠ utf8Length a := by
    rintro ⟨chunk, hm, hs⟩ rfl
    rw [not_surrounds_of_split hl hr hm] at hs
    exact Bool.noConfusion hs
  cases h with
  | edge => exact ⟨fun hi => ⟨hedge hi, hi⟩, And.right⟩
  | @inside left right chunk p q hsur _ _ =>
      have hhalves : offset' ≠ utf8Length a →
          ((chunk.firstHalf (utf8Length a) p).surrounds offset' = true ∨
            (chunk.secondHalf (utf8Length a) q).surrounds offset' = true ↔
            chunk.surrounds offset' = true) := by
        intro hne
        simp only [Chunk.surrounds_iff, Chunk.firstHalf, Chunk.secondHalf] at hsur ⊢
        omega
      have hrow : offset' ≠ utf8Length a →
          (Inside (left ++ [chunk.firstHalf (utf8Length a) p]
              ++ chunk.secondHalf (utf8Length a) q :: right) offset' ↔
            Inside (left ++ chunk :: right) offset') := by
        intro hne
        have hnil : ¬ Inside [] offset' := by simp [Inside]
        simp only [inside_append, inside_cons, hnil, or_false, or_assoc, ← hhalves hne]
      exact ⟨fun hi => ⟨hedge hi, (hrow (hedge hi)).mp hi⟩,
        fun hi => (hrow hi.1).mpr hi.2⟩

theorem inside_insertedLeft :
    Inside (buffer.insertedLeft f left right).chunks offset ↔
      Inside (left ++ right) offset := by
  rcases List.eq_nil_or_concat left with rfl | ⟨init, chunk, rfl⟩
  · rfl
  · rw [List.concat_eq_append, Buffer.insertedLeft_concat, List.append_assoc]
    simp only [inside_append, inside_cons, List.cons_append, List.nil_append]
    rfl

theorem inside_insertedRight :
    Inside (buffer.insertedRight f left right).chunks offset ↔
      Inside (left ++ right) offset := by
  cases right with
  | nil => simp [Buffer.insertedRight]
  | cons chunk rest =>
      simp only [Buffer.insertedRight, inside_append, inside_cons]
      rfl

theorem Buffer.Shows.insertedLeft (h : buffer.Shows margins)
    (hs : buffer.source = a ++ b) (hl : Tiles [] a left) (hr : Tiles a b right)
    (hrow : ∀ chunk ∈ left ++ right, chunk.Shows margins) :
    (buffer.insertedLeft f left right).Shows (margins.change .left (utf8Length a) f) := by
  have htiled : (buffer.insertedLeft f left right).Tiled := by
    rw [Tiled, insertedLeft_source, hs]
    exact Tiles.insertedLeft f hl hr
  have hedge : ∀ chunk ∈ left ++ right, chunk.surrounds (utf8Length a) = false :=
    fun chunk hm => not_surrounds_of_split hl hr hm
  have hright : ∀ chunk ∈ right, chunk.Shows (margins.change .left (utf8Length a) f) := by
    intro chunk hm
    refine (hrow chunk (by simp [hm])).change (hedge chunk (by simp [hm])) (fun _ => ?_)
      (fun hside => by cases hside)
    exact Nat.ne_of_gt (hr.lt_stop hm)
  have houtro : buffer.outro =
      (margins.change .left (utf8Length a) f) .right (utf8Length buffer.source) := by
    rw [Margins.change_of_side_ne (by decide), h.outro_eq]
  rcases List.eq_nil_or_concat left with rfl | ⟨init, chunk, rfl⟩
  · obtain rfl : a = [] := by simpa using hl.eq_nil_iff
    refine ⟨htiled, ?_, houtro, hright⟩
    rw [insertedLeft_nil, show utf8Length [] = 0 from rfl, Margins.change_self,
      h.intro_eq]
  · rw [List.concat_eq_append] at *
    obtain ⟨a', p, rfl, hinit, hp⟩ := hl.of_append
    obtain ⟨piece, rest, rfl, hc, hnil⟩ := hp.of_cons
    obtain rfl : rest = [] := by simpa using hnil.eq_nil_iff
    have hpos := utf8Length_pos hc.ne_nil
    refine ⟨htiled, ?_, ?_, ?_⟩
    · rw [insertedLeft_concat, Margins.change_of_offset_ne, h.intro_eq]
      simp only [utf8Length_append]
      omega
    · rw [insertedLeft_concat]
      exact houtro
    · rw [insertedLeft_concat]
      intro other hm
      have hcases : other ∈ init ∨ other = { chunk with outro := f chunk.outro } ∨
          other ∈ right := by simpa using hm
      rcases hcases with hm | rfl | hm
      · refine (hrow other (by simp [hm])).change (hedge other (by simp [hm]))
          (fun _ => ?_) (fun hside => by cases hside)
        have hle := hinit.stop_le hm
        simp only [List.nil_append, utf8Length_append] at hle ⊢
        omega
      · refine (hrow chunk (by simp)).changeOutro ?_
        simpa using hc.stop_eq
      · exact hright other hm

theorem Buffer.Shows.insertedRight (h : buffer.Shows margins)
    (hs : buffer.source = a ++ b) (hl : Tiles [] a left) (hr : Tiles a b right)
    (hrow : ∀ chunk ∈ left ++ right, chunk.Shows margins) :
    (buffer.insertedRight f left right).Shows
      (margins.change .right (utf8Length a) f) := by
  have htiled : (buffer.insertedRight f left right).Tiled := by
    rw [Tiled, insertedRight_source, hs]
    exact Tiles.insertedRight f hl hr
  have hedge : ∀ chunk ∈ left ++ right, chunk.surrounds (utf8Length a) = false :=
    fun chunk hm => not_surrounds_of_split hl hr hm
  have hleft : ∀ chunk ∈ left, chunk.Shows (margins.change .right (utf8Length a) f) := by
    intro chunk hm
    refine (hrow chunk (by simp [hm])).change (hedge chunk (by simp [hm]))
      (fun hside => by cases hside) (fun _ => ?_)
    have hlt := hl.start_lt_stop hm
    have hle := hl.stop_le hm
    rw [List.nil_append] at hle
    omega
  have hintro : buffer.intro = (margins.change .right (utf8Length a) f) .left 0 := by
    rw [Margins.change_of_side_ne (by decide), h.intro_eq]
  cases hr with
  | nil =>
      refine ⟨htiled, hintro, ?_, hleft⟩
      rw [insertedRight_source, Buffer.insertedRight, hs, List.append_nil,
        Margins.change_self, h.outro_eq, hs, List.append_nil]
  | @cons _ piece behind chunk rest hc hrest =>
      have hpos := utf8Length_pos hc.ne_nil
      refine ⟨htiled, hintro, ?_, ?_⟩
      · rw [insertedRight_source, Margins.change_of_offset_ne, ← h.outro_eq]
        · rfl
        · simp only [hs, utf8Length_append]
          omega
      · intro other hm
        have hcases : other ∈ left ∨ other = { chunk with intro := f chunk.intro } ∨
            other ∈ rest := by simpa [Buffer.insertedRight] using hm
        rcases hcases with hm | rfl | hm
        · exact hleft other hm
        · exact (hrow chunk (by simp)).changeIntro hc.start_eq
        · refine (hrow other (by simp [hm])).change (hedge other (by simp [hm]))
            (fun hside => by cases hside) (fun _ => ?_)
          have hle := hrest.le_start hm
          rw [utf8Length_append] at hle
          omega

end Change

/-! ## From inserts to operations -/

section Operation

variable {operation : Operation} {offset place length : Nat} {side : Side}
  {f g : List Char → List Char} {margins : Margins} {buffer next : Buffer}

theorem Operation.insertion?_of_left (h : operation.leftInsert? = some (place, g)) :
    operation.insertion? length = some (.left, place, g) := by
  cases operation <;> simp_all [leftInsert?, insertion?]

theorem Operation.insertion?_of_right (h : operation.rightInsert? = some (place, g)) :
    operation.insertion? length = some (.right, place, g) := by
  cases operation <;> simp_all [rightInsert?, insertion?]

theorem Operation.insertion?_of_range {range : Nat × Nat × List Char × Bool}
    (h : operation.range? = some range) : operation.insertion? length = none := by
  cases operation <;> simp_all [range?, insertion?]

theorem Operation.exists_insertion (h : operation.range? = none) (length : Nat) :
    ∃ side offset f, operation.insertion? length = some (side, offset, f) := by
  cases operation <;> simp_all [range?, insertion?]

/-- A buffer whose chunks show margins refuses an insert for its offset only. -/
theorem Buffer.Shows.refused_iff (h : buffer.Shows margins)
    (hop : operation.insertion? (utf8Length buffer.source) = some (side, offset, f)) :
    operation.Refused buffer ↔ buffer.Invalid offset := by
  have hblocked (offset : Nat) : ¬ Blocked offset buffer.chunks := by
    rintro ⟨chunk, hm, -, hrep⟩
    rw [Chunk.isReplaced, (h.row chunk hm).isEdited_eq] at hrep
    exact Bool.noConfusion hrep
  cases operation with
  | append text =>
      obtain ⟨rfl, rfl, rfl⟩ : side = .right ∧ offset = utf8Length buffer.source ∧
          f = (· ++ text) := by simp_all [Operation.insertion?]
      exact iff_of_false id
        (Buffer.not_invalid_iff.mpr ⟨buffer.source, [], by simp, rfl⟩)
  | prepend text =>
      obtain ⟨rfl, rfl, rfl⟩ : side = .left ∧ offset = 0 ∧ f = (text ++ ·) := by
        simp_all [Operation.insertion?]
      exact iff_of_false id (Buffer.not_invalid_iff.mpr ⟨[], buffer.source, rfl, rfl⟩)
  | appendLeft place text | prependLeft place text | appendRight place text
  | prependRight place text =>
      obtain rfl : place = offset := by simp_all [Operation.insertion?]
      simp [Operation.Refused, hblocked]
  | overwrite | update | remove => cases hop

theorem Accepted.shows (hacc : Accepted buffer operation next) (h : buffer.Shows margins)
    (hop : operation.insertion? (utf8Length buffer.source) = some (side, offset, f)) :
    next.Shows (margins.change side offset f) ∧
      ∀ offset', Inside next.chunks offset' ↔
        offset' ≠ offset ∧ Inside buffer.chunks offset' := by
  have hbounds (offset' : Nat) (hi : Inside buffer.chunks offset') :
      0 < offset' ∧ offset' < utf8Length buffer.source := h.tiled.inside_bounds hi
  have hends (chunk : Chunk) (hm : chunk ∈ buffer.chunks) :
      chunk.start < chunk.stop ∧ chunk.stop ≤ utf8Length buffer.source :=
    ⟨h.tiled.start_lt_stop hm, h.tiled.stop_le hm⟩
  cases hacc with
  | append text =>
      obtain ⟨rfl, rfl, rfl⟩ : side = .right ∧ offset = utf8Length buffer.source ∧
          f = (· ++ text) := by simp_all [Operation.insertion?]
      refine ⟨⟨h.tiled, ?_, ?_, fun chunk hm => ?_⟩, fun offset' => ?_⟩
      · rw [Margins.change_of_side_ne (by decide)]
        exact h.intro_eq
      · rw [Margins.change_self, ← h.outro_eq]
      · have hchunk := hends chunk hm
        refine (h.row chunk hm).change ?_ (fun hside => by cases hside) fun _ => by omega
        simp only [Chunk.surrounds, Bool.and_eq_false_iff, decide_eq_false_iff_not]
        omega
      · exact (and_iff_right_of_imp fun hi => Nat.ne_of_lt (hbounds _ hi).2).symm
  | prepend text =>
      obtain ⟨rfl, rfl, rfl⟩ : side = .left ∧ offset = 0 ∧ f = (text ++ ·) := by
        simp_all [Operation.insertion?]
      refine ⟨⟨h.tiled, ?_, ?_, fun chunk hm => ?_⟩, fun offset' => ?_⟩
      · rw [Margins.change_self, ← h.intro_eq]
      · rw [Margins.change_of_side_ne (by decide)]
        exact h.outro_eq
      · have hchunk := hends chunk hm
        refine (h.row chunk hm).change ?_ (fun _ => by omega) (fun hside => by cases hside)
        simp [Chunk.surrounds]
      · exact (and_iff_right_of_imp fun hi => Nat.ne_of_gt (hbounds _ hi).1).symm
  | nothing => cases hop
  | left hleft hs ho hcuts hl hr =>
      rw [Operation.insertion?_of_left hleft] at hop
      cases hop
      subst ho
      refine ⟨h.insertedLeft hs hl hr (hcuts.shows h.row), fun offset' => ?_⟩
      rw [inside_insertedLeft, hcuts.inside_iff hl hr]
  | right hright hs ho hcuts hl hr =>
      rw [Operation.insertion?_of_right hright] at hop
      cases hop
      subst ho
      refine ⟨h.insertedRight hs hl hr (hcuts.shows h.row), fun offset' => ?_⟩
      rw [inside_insertedRight, hcuts.inside_iff hl hr]
  | range hrange =>
      rw [Operation.insertion?_of_range hrange] at hop
      cases hop

/-- What an insert does to a buffer that shows margins: it is refused for its offset and
changes nothing, or it is accepted and changes the margins there. -/
theorem Buffer.Shows.insert_cases (h : buffer.Shows margins)
    (hop : operation.insertion? (utf8Length buffer.source) = some (side, offset, f)) :
    (buffer.Invalid offset ∧ (∃ refusal, buffer.apply operation = .error refusal) ∧
        buffer.perform operation = buffer) ∨
      (¬ buffer.Invalid offset ∧ ∃ next, buffer.apply operation = .ok next ∧
        buffer.perform operation = next ∧ next.source = buffer.source ∧
        next.Shows (margins.change side offset f) ∧
        ∀ offset', Inside next.chunks offset' ↔
          offset' ≠ offset ∧ Inside buffer.chunks offset') := by
  rcases Buffer.apply_cases h.tiled operation with
    ⟨hrefused, ⟨refusal, _, herr⟩, hsame⟩ | ⟨hnot, next, hans, hnext, hacc⟩
  · exact .inl ⟨(h.refused_iff hop).mp hrefused, ⟨refusal, herr⟩, hsame⟩
  · obtain ⟨hshows, hinside⟩ := hacc.shows h hop
    exact .inr ⟨mt (h.refused_iff hop).mpr hnot, next, hans, hnext, hacc.source_eq,
      hshows, hinside⟩

end Operation

/-! ## Histories of inserts -/

namespace Buffer

variable {margins : Margins} {buffer : Buffer} {operation other : Operation}

theorem ofSource_shows (source : List Char) : (ofSource source).Shows Margins.empty := by
  refine ⟨ofSource_tiled source, rfl, rfl, fun chunk hm => ?_⟩
  rw [ofSource] at hm
  split at hm
  · simp at hm
  · obtain rfl : chunk = _ := by simpa using hm
    exact ⟨rfl, rfl, rfl, fun _ _ _ => rfl⟩

/-- After a history of inserts the buffer shows what the accepted ones put together. -/
theorem Shows.run (h : buffer.Shows margins) (history : List Operation)
    (hinserts : ∀ operation ∈ history, operation.range? = none) :
    (buffer.run history).Shows ((buffer.accepted history).foldl
      (Margins.add (utf8Length buffer.source)) margins) := by
  induction history generalizing buffer margins with
  | nil => exact h
  | cons operation rest ih =>
      have hrest : ∀ operation ∈ rest, operation.range? = none :=
        fun operation hm => hinserts operation (by simp [hm])
      obtain ⟨side, offset, f, hop⟩ := Operation.exists_insertion
        (hinserts operation (by simp)) (utf8Length buffer.source)
      rw [show buffer.run (operation :: rest) = (buffer.perform operation).run rest
        from rfl, accepted]
      rcases h.insert_cases hop with
        ⟨_, ⟨refusal, herr⟩, hsame⟩ | ⟨_, next, hans, hnext, hsource, hshows, _⟩
      · rw [herr, hsame]
        exact ih h hrest
      · have hadd : margins.add (utf8Length buffer.source) operation =
            margins.change side offset f := by rw [Margins.add, hop]
        rw [hans, hnext, List.singleton_append, List.foldl_cons, hadd, ← hsource]
        exact ih hshows hrest

theorem Shows.perform_comm (h : buffer.Shows margins) (hop : operation.range? = none)
    (hother : other.range? = none)
    (hne : operation.place? (utf8Length buffer.source) ≠
      other.place? (utf8Length buffer.source)) :
    (buffer.perform operation).perform other = (buffer.perform other).perform operation := by
  obtain ⟨side, offset, f, hins⟩ :=
    Operation.exists_insertion hop (utf8Length buffer.source)
  obtain ⟨side', offset', g, hins'⟩ :=
    Operation.exists_insertion hother (utf8Length buffer.source)
  have hplaces : (side, offset) ≠ (side', offset') := by
    simpa [Operation.place?, hins, hins'] using hne
  have hinvalid {next : Buffer} (hs : next.source = buffer.source) (o : Nat) :
      next.Invalid o ↔ buffer.Invalid o := by rw [Invalid, Invalid, hs]
  -- The second insert finds the source that the first one found, and margins that the
  -- first one has changed elsewhere.
  rcases h.insert_cases hins with
    ⟨hv, _, hsame⟩ | ⟨hv, next, _, hnext, hsource, hshows, hinside⟩ <;>
  rcases h.insert_cases hins' with
    ⟨hv', _, hsame'⟩ | ⟨hv', next', _, hnext', hsource', hshows', hinside'⟩
  · rw [hsame, hsame', hsame]
  · rw [hsame, hnext']
    rcases hshows'.insert_cases (hsource'.symm ▸ hins) with ⟨_, _, hagain⟩ | ⟨hbad, _⟩
    · exact hagain.symm
    · exact absurd ((hinvalid hsource' offset).mpr hv) hbad
  · rw [hsame', hnext]
    rcases hshows.insert_cases (hsource.symm ▸ hins') with ⟨_, _, hagain⟩ | ⟨hbad, _⟩
    · exact hagain
    · exact absurd ((hinvalid hsource offset').mpr hv') hbad
  · rw [hnext, hnext']
    rcases hshows.insert_cases (hsource.symm ▸ hins') with
      ⟨hbad, _⟩ | ⟨_, both, _, hboth, hbsource, hbshows, hbinside⟩
    · exact absurd ((hinvalid hsource offset').mp hbad) hv'
    rcases hshows'.insert_cases (hsource'.symm ▸ hins) with
      ⟨hbad, _⟩ | ⟨_, both', _, hboth', hbsource', hbshows', hbinside'⟩
    · exact absurd ((hinvalid hsource' offset).mp hbad) hv
    rw [hboth, hboth']
    rw [Margins.change_comm hplaces] at hbshows
    refine eq_of_shows hbshows hbshows' ?_ fun place => ?_
    · rw [hbsource, hsource, hbsource', hsource']
    · rw [hbinside, hinside, hbinside', hinside', and_left_comm]

end Buffer

/-- Histories of inserts, told without the row. The text is the source with the margins
that the accepted inserts put together, an insert is accepted exactly if its offset is
valid, and inserts at two places can be done in either order. -/
theorem inserts_lay_out (source : List Char) (history : List Operation)
    (hinserts : ∀ operation ∈ history, operation.range? = none) :
    let buffer := (Buffer.ofSource source).run history
    let margins := ((Buffer.ofSource source).accepted history).foldl
      (Margins.add (utf8Length source)) Margins.empty
    buffer.source = source ∧
    buffer.render = margins.layOut 0 source ∧
    (∀ operation side offset f,
      operation.insertion? (utf8Length source) = some (side, offset, f) →
      ((∃ next, buffer.apply operation = .ok next) ↔
        Text.isBoundary offset source = true)) ∧
    ∀ operation other : Operation, operation.range? = none → other.range? = none →
      operation.place? (utf8Length source) ≠ other.place? (utf8Length source) →
      (buffer.perform operation).perform other =
        (buffer.perform other).perform operation := by
  intro buffer margins
  have hsource : buffer.source = source :=
    Buffer.source_run (Buffer.ofSource_tiled source) history
  have hshows : buffer.Shows margins := (Buffer.ofSource_shows source).run history hinserts
  refine ⟨hsource, ?_, ?_, ?_⟩
  · rw [hshows.render_eq, hsource]
  · intro operation side offset f hop
    have hvalid : ¬ buffer.Invalid offset ↔ Text.isBoundary offset source = true := by
      rw [Buffer.not_invalid_iff, Text.isBoundary_iff, hsource]
      simp only [eq_comm]
    rw [← hvalid]
    rcases hshows.insert_cases (hsource.symm ▸ hop) with
      ⟨hv, ⟨refusal, herr⟩, _⟩ | ⟨hv, next, hans, _⟩
    · refine iff_of_false ?_ fun hnot => hnot hv
      rintro ⟨next, hok⟩
      rw [herr] at hok
      exact nomatch hok
    · exact iff_of_true ⟨next, hans⟩ hv
  · intro operation other hop hother hne
    exact hshows.perform_comm hop hother (by rwa [hsource])

/-- Inserts on both sides of cuts and at both ends, and one inside a character. -/
theorem inserts_lay_out_around_cuts :
    let source := ['a', 'é', 'b']
    let history : List Operation := [.appendRight 1 ['r'], .prepend ['p'],
      .appendLeft 3 ['l'], .appendLeft 2 ['x'], .append ['q'], .prependRight 1 ['s']]
    let buffer := (Buffer.ofSource source).run history
    (∀ operation ∈ history, operation.range? = none) ∧
    buffer.render = ['p', 'a', 's', 'r', 'é', 'l', 'b', 'q'] ∧
    (buffer.perform (.appendLeft 1 ['y'])).perform (.prependRight 1 ['z']) =
      (buffer.perform (.prependRight 1 ['z'])).perform (.appendLeft 1 ['y']) := by
  intro source history buffer
  have hinserts : ∀ operation ∈ history, operation.range? = none := by decide
  obtain ⟨-, hrender, -, hcomm⟩ := inserts_lay_out source history hinserts
  refine ⟨hinserts, hrender.trans ?_, hcomm _ _ rfl rfl (by decide)⟩
  decide +kernel

end ParseView.Edit
