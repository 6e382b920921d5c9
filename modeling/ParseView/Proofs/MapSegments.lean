import Mathlib.Data.List.Basic
import ParseView.Proofs.MapTrace

/-!
# Which segments a map has

A segment stands on a character of the edited text and leads to a place of the source.
Which characters may carry one is a matter of what they are there for. The edited text
is therefore told once more with a label at each character (`Buffer.labelled`), and
`Provenance.Carries` says what may stand on it: nothing on inserted text, one segment on the
first character of a replacement and none on the others, and on a character of the
source nothing but a segment that leads to that character.

The layout is followed mark by mark. A mark is a labelled character together with the
part of the source before the place that its segment leads to. The segments that were
laid out are those of the marks (`Layout.Marked`), each at the place behind the text
before it, so the order of the segments in the edited text is the order of the marks.
Their order in the source is that of the parts of the source, which grow from mark to
mark because the chunks stand for the source from left to right.
-/

namespace ParseView

open Text (utf8Length utf8Length_append)

/-! ## The provenance of the edited text -/

namespace Edit

/-- What a character of the edited text is there for. -/
inductive Provenance where
  | inserted
  /-- It stands at an offset of the source. -/
  | kept (offset : Nat)
  /-- It has an index in the text that took the place of the source from an offset on. -/
  | replacing (start index : Nat)
deriving DecidableEq, Repr

def insertedText (text : List Char) : List (Char × Provenance) := text.map (·, .inserted)

def Chunk.labelled (chunk : Chunk) : List (Char × Provenance) :=
  insertedText chunk.intro
    ++ (if chunk.isEdited then
        chunk.content.zipIdx.map fun (c, index) => (c, .replacing chunk.start index)
      else (withOffsets chunk.start chunk.content).map fun (c, offset) => (c, .kept offset))
    ++ insertedText chunk.outro

/-- The edited text, each character with what it is there for. -/
def Buffer.labelled (buffer : Buffer) : List (Char × Provenance) :=
  insertedText buffer.intro ++ buffer.chunks.flatMap Chunk.labelled
    ++ insertedText buffer.outro

/-- What the segments on a character lead to, by its label. -/
def Provenance.Carries (everyChar : Bool) (source : List Char) (c : Char) (label : Provenance)
    (origins : List Position) : Prop :=
  match label with
  | .inserted => origins = []
  | .kept offset =>
    ∃ before behind, source = before ++ c :: behind ∧ utf8Length before = offset ∧
      (origins = [Position.behind before] ∨ everyChar = false ∧ origins = [])
  | .replacing start 0 =>
    ∃ before behind, source = before ++ behind ∧ utf8Length before = start ∧
      origins = [Position.behind before]
  | .replacing _ (_ + 1) => origins = []

theorem map_fst_insertedText (text : List Char) : (insertedText text).map Prod.fst = text := by
  simp [insertedText, Function.comp_def]

theorem Chunk.map_fst_labelled (chunk : Chunk) : chunk.labelled.map Prod.fst = chunk.render := by
  rw [labelled, render, List.map_append, List.map_append, map_fst_insertedText,
    map_fst_insertedText]
  cases chunk.isEdited with
  | true => simp [Function.comp_def]
  | false =>
      have hkept := map_fst_withOffsets chunk.start chunk.content
      simpa [Function.comp_def] using hkept

theorem Buffer.map_fst_labelled (buffer : Buffer) :
    buffer.labelled.map Prod.fst = buffer.render := by
  rw [labelled, render, List.map_append, List.map_append, map_fst_insertedText,
    map_fst_insertedText, List.map_flatMap]
  simp only [Chunk.map_fst_labelled]

theorem Chunk.Covers.takeBytes_start {chunk : Chunk} {source before piece behind : List Char}
    (hc : chunk.Covers before piece) (hs : source = before ++ piece ++ behind) :
    takeBytes chunk.start source = before := by
  rw [hc.start_eq, hs, List.append_assoc, takeBytes_append]

/-! ## The order of places -/

/-- One place comes before another. -/
def Position.Before (a b : Position) : Prop :=
  a.line < b.line ∨ a.line = b.line ∧ a.column < b.column

theorem Position.Before.trans {a b c : Position} (h : a.Before b) (h' : b.Before c) :
    a.Before c := by
  rw [Before] at h h' ⊢
  omega

theorem Position.Before.ne {a b : Position} (h : a.Before b) : a ≠ b := by
  rintro rfl
  rw [Before] at h
  omega

/-- The place behind a text comes before the place behind a longer one. -/
theorem Position.behind_before (text : List Char) (c : Char) (more : List Char) :
    (Position.behind text).Before (Position.behind (text ++ c :: more)) := by
  have hstep (text : List Char) (c : Char) :
      (Position.behind text).Before (Position.behind (text ++ [c])) := by
    rw [behind_append_singleton]
    split
    · exact .inl (Nat.lt_succ_self _)
    · exact .inr ⟨rfl, Nat.lt_add_of_pos_right (Text.utf16Size_pos c)⟩
  induction more generalizing text c with
  | nil => exact hstep text c
  | cons d rest ih =>
      have hrest := ih (text ++ [c]) d
      rw [List.append_assoc] at hrest
      exact (hstep text c).trans hrest

end Edit

namespace SourceMap

open Edit (Position Chunk Buffer LineIndex Operation Tiles Provenance insertedText withOffsets
  takeBytes)

/-! ## Marks -/

/-- A labelled character, with the part of the source before the place that the segment
on it leads to, if it carries one. -/
structure Mark where
  char : Char
  label : Provenance
  lead? : Option (List Char)

def insertedMarks (text : List Char) : List Mark := text.map (⟨·, .inserted, none⟩)

/-- Marks of a text that takes the place of what stands behind a part of the source. -/
def replacingMarks (before text : List Char) : List Mark :=
  text.zipIdx.map fun (c, index) =>
    ⟨c, .replacing (utf8Length before) index, if index = 0 then some before else none⟩

/-- Marks of a text of the source that stands behind a part of it. -/
def keptMarks (everyChar atStart : Bool) (before : List Char) : List Char → List Mark
  | [] => []
  | c :: rest =>
    ⟨c, .kept (utf8Length before), if everyChar || atStart then some before else none⟩
      :: keptMarks everyChar (c == '\n') (before ++ [c]) rest

def chunkMarks (everyChar : Bool) (source : List Char) (chunk : Chunk) : List Mark :=
  let before := takeBytes chunk.start source
  insertedMarks chunk.intro
    ++ (if chunk.isEdited then replacingMarks before chunk.content
      else keptMarks everyChar true before chunk.content)
    ++ insertedMarks chunk.outro

def bufferMarks (everyChar : Bool) (buffer : Buffer) : List Mark :=
  insertedMarks buffer.intro ++ buffer.chunks.flatMap (chunkMarks everyChar buffer.source)
    ++ insertedMarks buffer.outro

/-- The segments on the marks of a text behind `shown`: where they stand and lead to. -/
def segmentsFrom (shown : List Char) : List Mark → List (Position × Position)
  | [] => []
  | mark :: rest =>
    (mark.lead?.map fun before => (Position.behind shown, Position.behind before)).toList
      ++ segmentsFrom (shown ++ [mark.char]) rest

theorem segmentsFrom_append (shown : List Char) (a b : List Mark) :
    segmentsFrom shown (a ++ b) =
      segmentsFrom shown a ++ segmentsFrom (shown ++ a.map Mark.char) b := by
  induction a generalizing shown with
  | nil => simp [segmentsFrom]
  | cons mark rest ih => simp [segmentsFrom, ih]

/-- A segment stands behind the text before its mark. -/
theorem exists_of_mem_segmentsFrom {shown : List Char} {marks : List Mark}
    {x : Position × Position} (h : x ∈ segmentsFrom shown marks) :
    ∃ a mark b, marks = a ++ mark :: b ∧ x.1 = Position.behind (shown ++ a.map Mark.char) := by
  induction marks generalizing shown with
  | nil => simp [segmentsFrom] at h
  | cons mark rest ih =>
      rw [segmentsFrom, List.mem_append] at h
      rcases h with h | h
      · obtain ⟨before, -, rfl⟩ : ∃ before, mark.lead? = some before ∧
            (Position.behind shown, Position.behind before) = x := by simpa using h
        exact ⟨[], mark, rest, rfl, by simp⟩
      · obtain ⟨a, found, b, rfl, hplace⟩ := ih h
        exact ⟨mark :: a, found, b, rfl, by simpa using hplace⟩

/-- The segments stand one behind the other. -/
theorem pairwise_segmentsFrom (shown : List Char) (marks : List Mark) :
    (segmentsFrom shown marks).Pairwise fun x y => x.1.Before y.1 := by
  induction marks generalizing shown with
  | nil => exact .nil
  | cons mark rest ih =>
      rw [segmentsFrom, List.pairwise_append]
      refine ⟨by cases mark.lead? <;> simp, ih _, ?_⟩
      intro x hx y hy
      obtain ⟨before, -, rfl⟩ : ∃ before, mark.lead? = some before ∧
          (Position.behind shown, Position.behind before) = x := by simpa using hx
      obtain ⟨a, found, b, -, hplace⟩ := exists_of_mem_segmentsFrom hy
      rw [hplace, List.append_assoc]
      exact Position.behind_before shown mark.char (a.map Mark.char)

theorem map_snd_segmentsFrom (shown : List Char) (marks : List Mark) :
    (segmentsFrom shown marks).map Prod.snd =
      (marks.filterMap Mark.lead?).map Position.behind := by
  induction marks generalizing shown with
  | nil => rfl
  | cons mark rest ih =>
      rw [segmentsFrom, List.map_append, ih]
      cases h : mark.lead? <;> simp [h]

/-- The segment on a mark is the only one at its place. -/
theorem filter_segmentsFrom (a : List Mark) (mark : Mark) (b : List Mark) :
    ((segmentsFrom [] (a ++ mark :: b)).filter
        (·.1 = Position.behind (a.map Mark.char))).map Prod.snd =
      (mark.lead?.map Position.behind).toList := by
  have hbefore : (segmentsFrom [] a).filter (·.1 = Position.behind (a.map Mark.char)) = [] := by
    rw [List.filter_eq_nil_iff]
    intro x hx
    obtain ⟨c, found, d, rfl, hplace⟩ := exists_of_mem_segmentsFrom hx
    have hlt := Position.behind_before (c.map Mark.char) found.char (d.map Mark.char)
    simpa [hplace] using hlt.ne
  have hbehind : (segmentsFrom (a.map Mark.char ++ [mark.char]) b).filter
      (·.1 = Position.behind (a.map Mark.char)) = [] := by
    rw [List.filter_eq_nil_iff]
    intro x hx
    obtain ⟨c, found, d, rfl, hplace⟩ := exists_of_mem_segmentsFrom hx
    have hlt := Position.behind_before (a.map Mark.char) mark.char (c.map Mark.char)
    simpa [hplace] using hlt.ne.symm
  rw [segmentsFrom_append, segmentsFrom, List.nil_append, List.filter_append,
    List.filter_append, hbefore, hbehind]
  cases mark.lead? <;> simp

/-! ## Marks of a buffer -/

/-- What follows a part of the source up to the place of a mark, if it goes on there. -/
def LeadsInto (before text lead : List Char) : Prop :=
  ∃ p c q, text = p ++ c :: q ∧ lead = before ++ p

/-- One part of the source is longer than another. -/
def Extends (a b : List Char) : Prop := ∃ c more, b = a ++ c :: more

/-- Each mark carries what its label allows, and the segments on the marks lead to places
of a text behind `before`, one behind the other. -/
structure MarksFor (everyChar : Bool) (source before text : List Char)
    (marks : List Mark) : Prop where
  carries : ∀ mark ∈ marks, mark.label.Carries everyChar source mark.char
    (mark.lead?.map Position.behind).toList
  leadsInto : ∀ lead ∈ marks.filterMap Mark.lead?, LeadsInto before text lead
  pairwise : (marks.filterMap Mark.lead?).Pairwise Extends

theorem filterMap_lead?_insertedMarks (text : List Char) :
    (insertedMarks text).filterMap Mark.lead? = [] := by
  simp [insertedMarks, List.filterMap_map]

/-- Only the first mark of a replacement carries a segment. -/
theorem replacingMarks_cons (before : List Char) (c : Char) (rest : List Char) :
    ∃ more, replacingMarks before (c :: rest) =
        ⟨c, .replacing (utf8Length before) 0, some before⟩ :: more ∧
      more.map Mark.char = rest ∧ ∀ mark ∈ more, mark.lead? = none := by
  rw [replacingMarks, List.zipIdx_cons, List.map_cons]
  refine ⟨_, rfl, ?_, ?_⟩
  · rw [List.map_map]
    exact List.zipIdx_map_fst 1 rest
  · intro mark hm
    obtain ⟨⟨d, index⟩, hindex, rfl⟩ := List.mem_map.mp hm
    have hle : 1 ≤ index := List.le_snd_of_mem_zipIdx hindex
    exact if_neg (by omega)

theorem filterMap_lead?_replacingMarks (before : List Char) (c : Char) (rest : List Char) :
    (replacingMarks before (c :: rest)).filterMap Mark.lead? = [before] := by
  obtain ⟨more, hmarks, -, hnone⟩ := replacingMarks_cons before c rest
  rw [hmarks, List.filterMap_cons, List.filterMap_eq_nil_iff.mpr hnone]

theorem LeadsInto.of_left {before a lead : List Char} (h : LeadsInto before a lead)
    (b : List Char) : LeadsInto before (a ++ b) lead := by
  obtain ⟨p, c, q, rfl, rfl⟩ := h
  exact ⟨p, c, q ++ b, by simp, rfl⟩

theorem LeadsInto.of_right {before a b lead : List Char}
    (h : LeadsInto (before ++ a) b lead) : LeadsInto before (a ++ b) lead := by
  obtain ⟨p, c, q, rfl, rfl⟩ := h
  exact ⟨a ++ p, c, q, by simp, by simp⟩

theorem LeadsInto.extends {before a b lead lead' : List Char} (h : LeadsInto before a lead)
    (h' : LeadsInto (before ++ a) b lead') : Extends lead lead' := by
  obtain ⟨p, c, q, rfl, rfl⟩ := h
  obtain ⟨p', c', q', rfl, rfl⟩ := h'
  exact ⟨c, q ++ p', by simp⟩

namespace MarksFor

variable {everyChar : Bool} {source before text a b piece behind : List Char}
  {left right : List Mark} {chunk : Chunk} {row : List Chunk}

theorem append (hl : MarksFor everyChar source before a left)
    (hr : MarksFor everyChar source (before ++ a) b right) :
    MarksFor everyChar source before (a ++ b) (left ++ right) where
  carries := by
    intro mark hm
    rcases List.mem_append.mp hm with hm | hm
    · exact hl.carries mark hm
    · exact hr.carries mark hm
  leadsInto := by
    intro lead hm
    rw [List.filterMap_append] at hm
    rcases List.mem_append.mp hm with hm | hm
    · exact (hl.leadsInto lead hm).of_left b
    · exact (hr.leadsInto lead hm).of_right
  pairwise := by
    rw [List.filterMap_append, List.pairwise_append]
    refine ⟨hl.pairwise, hr.pairwise, ?_⟩
    intro lead hm lead' hm'
    exact (hl.leadsInto lead hm).extends (hr.leadsInto lead' hm')

theorem inserted (shown : List Char) :
    MarksFor everyChar source before [] (insertedMarks shown) where
  carries := by
    intro mark hm
    obtain ⟨c, -, rfl⟩ := List.mem_map.mp hm
    rfl
  leadsInto := by simp [filterMap_lead?_insertedMarks]
  pairwise := by simp [filterMap_lead?_insertedMarks]

theorem replacing (hs : source = before ++ piece ++ behind) (hne : piece ≠ [])
    (shown : List Char) :
    MarksFor everyChar source before piece (replacingMarks before shown) where
  carries := by
    intro mark hm
    obtain ⟨⟨c, index⟩, -, rfl⟩ := List.mem_map.mp hm
    cases index with
    | zero => exact ⟨before, piece ++ behind, by simpa using hs, rfl, rfl⟩
    | succ index => exact rfl
  leadsInto := by
    intro lead hm
    cases shown with
    | nil => simp [replacingMarks] at hm
    | cons c rest =>
        rw [filterMap_lead?_replacingMarks, List.mem_singleton] at hm
        obtain ⟨d, more, rfl⟩ := List.exists_cons_of_ne_nil hne
        exact ⟨[], d, more, rfl, by simpa using hm⟩
  pairwise := by
    cases shown with
    | nil => exact .nil
    | cons c rest =>
        rw [filterMap_lead?_replacingMarks]
        exact List.pairwise_singleton _ _

theorem kept {atStart : Bool} (hs : source = before ++ text ++ behind) :
    MarksFor everyChar source before text (keptMarks everyChar atStart before text) := by
  induction text generalizing before atStart with
  | nil => exact inserted []
  | cons c rest ih =>
      have hrest : source = (before ++ [c]) ++ rest ++ behind := by simpa using hs
      have hfirst : MarksFor everyChar source before [c]
          [⟨c, .kept (utf8Length before),
            if everyChar || atStart then some before else none⟩] := by
        refine ⟨?_, ?_, ?_⟩
        · intro mark hm
          obtain rfl := List.mem_singleton.mp hm
          refine ⟨before, rest ++ behind, by simpa using hs, rfl, ?_⟩
          cases everyChar <;> cases atStart <;> simp
        · intro lead hm
          obtain ⟨-, rfl⟩ : (everyChar || atStart) = true ∧ before = lead := by
            simpa using hm
          exact ⟨[], c, [], rfl, by simp⟩
        · cases everyChar || atStart <;> simp
      exact hfirst.append (ih hrest)

/-- The marks of a chunk lead into the piece it stands for. -/
theorem ofChunk (hc : chunk.Covers before piece) (hs : source = before ++ piece ++ behind) :
    MarksFor everyChar source before piece (chunkMarks everyChar source chunk) := by
  have hcontent : MarksFor everyChar source before piece
      (if chunk.isEdited then replacingMarks before chunk.content
        else keptMarks everyChar true before chunk.content) := by
    cases he : chunk.isEdited with
    | true => exact replacing hs hc.ne_nil chunk.content
    | false =>
        rw [hc.content_eq he]
        exact kept hs
  rw [chunkMarks, hc.takeBytes_start hs]
  have hintro : MarksFor everyChar source before [] (insertedMarks chunk.intro) :=
    inserted chunk.intro
  have hfront := hintro.append (by simpa using hcontent)
  simpa using hfront.append (inserted chunk.outro)

theorem ofRow (ht : Tiles before text row) (hs : source = before ++ text ++ behind) :
    MarksFor everyChar source before text (row.flatMap (chunkMarks everyChar source)) := by
  induction ht with
  | nil before => exact inserted []
  | @cons before piece rest chunk row hc _ ih =>
      have hchunk : source = before ++ piece ++ (rest ++ behind) := by simpa using hs
      exact (ofChunk hc hchunk).append (ih (by simpa using hs))

theorem ofBuffer (everyChar : Bool) {buffer : Buffer} (ht : buffer.Tiled) :
    MarksFor everyChar buffer.source [] buffer.source (bufferMarks everyChar buffer) := by
  have hintro : MarksFor everyChar buffer.source [] [] (insertedMarks buffer.intro) :=
    inserted buffer.intro
  have hfront := hintro.append (ofRow ht (List.append_nil _).symm)
  rw [bufferMarks]
  simpa using hfront.append (inserted buffer.outro)

end MarksFor

/-- Without their segments the marks are the labelled text. -/
theorem map_keptMarks (everyChar atStart : Bool) (before text : List Char) :
    (keptMarks everyChar atStart before text).map (fun mark => (mark.char, mark.label)) =
      (withOffsets (utf8Length before) text).map fun (c, offset) => (c, .kept offset) := by
  induction text generalizing before atStart with
  | nil => rfl
  | cons c rest ih =>
      rw [keptMarks, List.map_cons, ih, withOffsets, utf8Length_append]
      rfl

theorem map_chunkMarks {everyChar : Bool} {source before piece behind : List Char}
    {chunk : Chunk} (hc : chunk.Covers before piece) (hs : source = before ++ piece ++ behind) :
    (chunkMarks everyChar source chunk).map (fun mark => (mark.char, mark.label)) =
      chunk.labelled := by
  rw [chunkMarks, hc.takeBytes_start hs, Chunk.labelled, List.map_append, List.map_append,
    hc.start_eq]
  cases chunk.isEdited with
  | true => simp [insertedMarks, insertedText, replacingMarks, Function.comp_def]
  | false => simp [insertedMarks, insertedText, map_keptMarks, Function.comp_def]

theorem map_bufferMarks (everyChar : Bool) {buffer : Buffer} (ht : buffer.Tiled) :
    (bufferMarks everyChar buffer).map (fun mark => (mark.char, mark.label)) =
      buffer.labelled := by
  have hrow : ∀ chunk ∈ buffer.chunks, (chunkMarks everyChar buffer.source chunk).map
      (fun mark => (mark.char, mark.label)) = chunk.labelled := by
    intro chunk hm
    obtain ⟨a, piece, b, hs, hc⟩ := ht.covers_of_mem hm
    exact map_chunkMarks hc hs
  rw [bufferMarks, Buffer.labelled, List.map_append, List.map_append, List.map_flatMap,
    List.flatMap_congr hrow]
  simp [insertedMarks, insertedText, Function.comp_def]

/-! ## What is laid out -/

/-- The entries of all lines in their order, each with its place. -/
def inOrder {α β : Type} (column : α → Nat) (value : α → β) (lines : List (List α)) :
    List (Position × β) :=
  lines.zipIdx.flatMap fun (line, number) => line.map fun x => (⟨number, column x⟩, value x)

theorem inOrder_concat {α β : Type} (column : α → Nat) (value : α → β)
    (lines : List (List α)) (line : List α) :
    inOrder column value (lines ++ [line]) =
      inOrder column value lines
        ++ line.map fun x => (⟨lines.length, column x⟩, value x) := by
  simp [inOrder, List.zipIdx_append]

/-- The entries that a reader finds for segments. -/
theorem inOrder_ofSegment (lines : List (List Segment)) :
    inOrder Entry.column Entry.target (lines.map (·.map Entry.ofSegment)) =
      (inOrder Segment.column Segment.origin lines).map
        fun (place, origin) => (place, some ⟨0, origin, none⟩) := by
  simp [inOrder, List.zipIdx_map, List.flatMap_map, List.map_flatMap, Function.comp_def,
    Entry.ofSegment]

namespace Layout

/-- The segments of a layout in their order: where they stand and lead to. -/
def segments (layout : Layout) : List (Position × Position) :=
  inOrder Segment.column Segment.origin layout.lines

theorem segments_addSegment (layout : Layout) (origin : Position) :
    (layout.addSegment origin).segments = layout.segments ++ [(layout.place, origin)] := by
  rw [segments, segments, lines_eq, lines_eq, inOrder_concat, inOrder_concat, addSegment,
    List.reverse_cons, List.map_append, List.append_assoc]
  simp [place]

theorem segments_advanceChar (layout : Layout) (c : Char) :
    (layout.advanceChar c).segments = layout.segments := by
  by_cases hc : c = '\n'
  · subst hc
    rw [advanceChar_newline, segments, segments, lines_eq, lines_eq, inOrder_concat]
    simp
  · rw [advanceChar_of_ne hc]
    rfl

/-- The layout stands behind the marks, and its segments are the segments on them. -/
structure Marked (layout : Layout) (marks : List Mark) : Prop where
  place_eq : layout.place = Position.behind (marks.map Mark.char)
  segments_eq : layout.segments = segmentsFrom [] marks

namespace Marked

variable {everyChar atStart : Bool} {source before text piece behind : List Char}
  {layout : Layout} {marks more : List Mark} {chunk : Chunk} {row : List Chunk}

theorem empty : Layout.empty.Marked [] := ⟨rfl, rfl⟩

/-- A character without a segment is laid out. -/
theorem advanceChar (h : layout.Marked marks) (mark : Mark) (hm : mark.lead? = none) :
    (layout.advanceChar mark.char).Marked (marks ++ [mark]) where
  place_eq := by
    rw [List.map_append]
    exact place_advanceChar h.place_eq mark.char
  segments_eq := by
    rw [segments_advanceChar, h.segments_eq, segmentsFrom_append]
    simp [segmentsFrom, hm]

/-- A character with a segment is laid out. -/
theorem addSegment (h : layout.Marked marks) (mark : Mark) (hm : mark.lead? = some before) :
    ((layout.addSegment (Position.behind before)).advanceChar mark.char).Marked
      (marks ++ [mark]) where
  place_eq := by
    have hplace : (layout.addSegment (Position.behind before)).place =
        Position.behind (marks.map Mark.char) := h.place_eq
    rw [List.map_append]
    exact place_advanceChar hplace mark.char
  segments_eq := by
    rw [segments_advanceChar, segments_addSegment, h.segments_eq, h.place_eq,
      segmentsFrom_append]
    simp [segmentsFrom, hm]

/-- Text without segments is laid out. -/
theorem advance (h : layout.Marked marks) (hmore : ∀ mark ∈ more, mark.lead? = none) :
    (layout.advance (more.map Mark.char)).Marked (marks ++ more) := by
  induction more generalizing layout marks with
  | nil => simpa [Layout.advance] using h
  | cons mark rest ih =>
      obtain ⟨hmark, hrest⟩ := List.forall_mem_cons.mp hmore
      simpa [Layout.advance] using ih (h.advanceChar mark hmark) hrest

theorem advance_inserted (h : layout.Marked marks) (text : List Char) :
    (layout.advance text).Marked (marks ++ insertedMarks text) := by
  have hchars : (insertedMarks text).map Mark.char = text := by
    simp [insertedMarks, Function.comp_def]
  have hnone : ∀ mark ∈ insertedMarks text, mark.lead? = none := by
    intro mark hm
    obtain ⟨c, -, rfl⟩ := List.mem_map.mp hm
    rfl
  have hnext := h.advance hnone
  rwa [hchars] at hnext

/-- A replacement is laid out, with a segment where it begins. -/
theorem advance_replacing (h : layout.Marked marks) (hne : text ≠ []) :
    ((layout.addSegment (Position.behind before)).advance text).Marked
      (marks ++ replacingMarks before text) := by
  obtain ⟨c, rest, rfl⟩ := List.exists_cons_of_ne_nil hne
  obtain ⟨more, hmarks, hchars, hnone⟩ := replacingMarks_cons before c rest
  have hfirst : ((layout.addSegment (Position.behind before)).advanceChar c).Marked
      (marks ++ [⟨c, .replacing (utf8Length before) 0, some before⟩]) :=
    h.addSegment ⟨c, _, some before⟩ rfl
  have hnext := hfirst.advance hnone
  rw [hchars] at hnext
  simpa [hmarks, Layout.advance] using hnext

/-- Text of the source is laid out. -/
theorem addSource (h : layout.Marked marks) (text : List Char) :
    (layout.addSource everyChar atStart (Position.behind before) text).Marked
      (marks ++ keptMarks everyChar atStart before text) := by
  induction text generalizing layout marks before atStart with
  | nil => simpa [Layout.addSource, keptMarks] using h
  | cons c rest ih =>
      have hfirst : ((if everyChar || atStart then layout.addSegment (Position.behind before)
          else layout).advanceChar c).Marked
          (marks ++ [⟨c, .kept (utf8Length before),
            if everyChar || atStart then some before else none⟩]) := by
        cases everyChar || atStart with
        | true => exact h.addSegment ⟨c, _, some before⟩ rfl
        | false => exact h.advanceChar ⟨c, _, none⟩ rfl
      rw [Layout.addSource, stepOrigin_behind, keptMarks]
      simpa using ih hfirst

theorem layChunk (h : layout.Marked marks) (hc : chunk.Covers before piece)
    (hs : source = before ++ piece ++ behind) :
    (layChunk everyChar (LineIndex.ofSource source) layout chunk).Marked
      (marks ++ chunkMarks everyChar source chunk) := by
  have horigin : (LineIndex.ofSource source).position chunk.start = Position.behind before := by
    rw [hs, hc.start_eq, List.append_assoc, LineIndex.position_eq]
  have hintro := h.advance_inserted chunk.intro
  rw [SourceMap.layChunk, horigin, chunkMarks, hc.takeBytes_start hs, ← List.append_assoc,
    ← List.append_assoc]
  refine advance_inserted ?_ chunk.outro
  cases chunk.isEdited with
  | true =>
      by_cases hnil : chunk.content = []
      · simpa [hnil, replacingMarks] using hintro
      · simpa [hnil] using hintro.advance_replacing hnil
  | false => exact hintro.addSource chunk.content

theorem layRow (everyChar : Bool) (h : layout.Marked marks) (ht : Tiles before text row)
    (hs : source = before ++ text ++ behind) :
    (row.foldl (SourceMap.layChunk everyChar (LineIndex.ofSource source)) layout).Marked
      (marks ++ row.flatMap (chunkMarks everyChar source)) := by
  induction ht generalizing layout marks with
  | nil before => simpa using h
  | @cons before piece rest chunk row hc _ ih =>
      have hs' : source = before ++ piece ++ (rest ++ behind) := by simpa using hs
      simpa using ih (h.layChunk hc hs') (by simpa using hs)

end Marked

end Layout

/-- The segments of a buffer's text are those on its marks, in as many lines as the text
has. -/
theorem segments_linesOf (everyChar : Bool) {buffer : Buffer} (ht : buffer.Tiled) :
    inOrder Segment.column Segment.origin (linesOf everyChar buffer) =
        segmentsFrom [] (bufferMarks everyChar buffer) ∧
      (linesOf everyChar buffer).length = buffer.render.count '\n' + 1 := by
  have hintro : (Layout.empty.advance buffer.intro).Marked (insertedMarks buffer.intro) :=
    Layout.Marked.empty.advance_inserted buffer.intro
  have hrow := hintro.layRow everyChar ht (List.append_nil _).symm
  obtain ⟨hplace, hsegments⟩ := hrow.advance_inserted buffer.outro
  have hchars : (bufferMarks everyChar buffer).map Mark.char = buffer.render := by
    rw [← buffer.map_fst_labelled, ← map_bufferMarks everyChar ht, List.map_map]
    rfl
  refine ⟨hsegments, ?_⟩
  rw [linesOf, Layout.lines, List.length_reverse, List.length_cons, ← hchars]
  exact congrArg (·.line + 1) hplace

/-! ## Maps -/

/-- A map has the segments it should have, in order. Read by the rules of the format, its
mappings have one line for each line of the edited text. All segments lead to the one
source, and from each to the next the places in the edited text and in the source both
go forward. Each of them stands on a character of the edited text, and what stands on a
character is what its label allows. -/
theorem map_segments_ordered (source : List Char) (history : List Operation)
    (options : Options) :
    let buffer := (Buffer.ofSource source).run history
    buffer.labelled.map Prod.fst = buffer.render ∧
    ∃ (lines : List (List Entry)) (segments : List (Position × Position)),
      readMappings? (ofBuffer buffer options).mappings.toList = some lines ∧
      lines.length = buffer.render.count '\n' + 1 ∧
      inOrder Entry.column Entry.target lines =
        segments.map (fun (place, origin) => (place, some ⟨0, origin, none⟩)) ∧
      segments.Pairwise (fun x y => x.1.Before y.1 ∧ x.2.Before y.2) ∧
      (∀ x ∈ segments, ∃ shown c label more, buffer.labelled = shown ++ (c, label) :: more ∧
        x.1 = Position.behind (shown.map Prod.fst)) ∧
      ∀ shown c label more, buffer.labelled = shown ++ (c, label) :: more →
        label.Carries options.everyChar source c
          ((segments.filter (·.1 = Position.behind (shown.map Prod.fst))).map Prod.snd) := by
  intro buffer
  have ht : buffer.Tiled := (Buffer.ofSource_tiled source).run history
  have hsource : buffer.source = source :=
    Buffer.source_run (Buffer.ofSource_tiled source) history
  have hmarks := map_bufferMarks options.everyChar ht
  have hfor := MarksFor.ofBuffer options.everyChar ht
  obtain ⟨hsegments, hlength⟩ := segments_linesOf options.everyChar ht
  refine ⟨buffer.map_fst_labelled, _, segmentsFrom [] (bufferMarks options.everyChar buffer),
    readMappings?_ofBuffer buffer options, ?_, ?_, ?_, ?_, ?_⟩
  · rw [List.length_map, hlength]
  · rw [inOrder_ofSegment, hsegments]
  · refine (pairwise_segmentsFrom [] _).and ?_
    have horigins : ((segmentsFrom [] (bufferMarks options.everyChar buffer)).map
        Prod.snd).Pairwise Position.Before := by
      rw [map_snd_segmentsFrom, List.pairwise_map]
      refine hfor.pairwise.imp ?_
      rintro a b ⟨c, more, rfl⟩
      exact Position.behind_before a c more
    exact List.pairwise_map.mp horigins
  · intro x hx
    obtain ⟨a, mark, b, hsplit, hplace⟩ := exists_of_mem_segmentsFrom hx
    rw [hsplit, List.map_append, List.map_cons] at hmarks
    refine ⟨_, _, _, _, hmarks.symm, ?_⟩
    rw [hplace, List.map_map]
    rfl
  · intro shown c label more hsplit
    obtain ⟨a, behind, hall, hshown, hbehind⟩ :=
      List.map_eq_append_iff.mp (hmarks.trans hsplit)
    obtain ⟨mark, b, rfl, hmark, -⟩ := List.map_eq_cons_iff.mp hbehind
    obtain ⟨rfl, rfl⟩ := Prod.mk.inj hmark
    have hchars : shown.map Prod.fst = a.map Mark.char := by
      rw [← hshown, List.map_map]
      rfl
    have hcarries := hfor.carries mark (by simp [hall])
    rw [hsource] at hcarries
    rw [hchars, hall, filter_segmentsFrom]
    exact hcarries

end SourceMap

end ParseView
