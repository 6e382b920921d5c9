import ParseView.Proofs.EditHistory
import ParseView.Proofs.MapReading
import ParseView.Proofs.TextPlace
import ParseView.SourceMap.Export

/-!
# A map leads back to the source

A reader of a map takes a place of the edited text, finds the last segment of its line
at or before its column, and goes on from the place of the source in that segment by as
many columns as are left. For every character that an unedited chunk shows this ends
where the character stands in the source, whatever was inserted, replaced and removed
around it.

The layout is compared with the trace of what was laid out so far: `Follows` says that it
stands where the trace ends, and that each character of the source in the trace is found
from its place. The second part survives every step because of `Layout.Passed`: a
segment that is added later stands behind all places that were passed, so that no lookup
from them changes. A character that is about to be laid out is found if the last segment
`Aims` at it, which is so right behind a segment and is kept along a line.
-/

namespace ParseView.SourceMap

open Edit (Position Chunk Buffer LineIndex Operation Tiles placed unplaced)
open Text (utf8Length utf8Length_append)

/-! ## Looking a place up -/

/-- The last entry of a place's line at or before its column. -/
def lastUpTo {α : Type} (column : α → Nat) (lines : List (List α)) (place : Position) :
    Option α := do
  let line ← lines[place.line]?
  line.reverse.find? fun x => column x ≤ place.column

theorem lastUpTo_map {α β : Type} (f : α → β) (column : β → Nat) (lines : List (List α))
    (place : Position) :
    lastUpTo column (lines.map (·.map f)) place =
      (lastUpTo (fun x => column (f x)) lines place).map f := by
  rw [lastUpTo, lastUpTo, List.getElem?_map]
  cases lines[place.line]? with
  | none => rfl
  | some line =>
      simp only [Option.map_some, Option.bind_eq_bind, Option.bind_some,
        ← List.map_reverse, List.find?_map]
      rfl

theorem lastUpTo_column_le {α : Type} {column : α → Nat} {lines : List (List α)}
    {place : Position} {x : α} (h : lastUpTo column lines place = some x) :
    column x ≤ place.column := by
  obtain ⟨line, -, hx⟩ := Option.bind_eq_some_iff.mp h
  simpa using List.find?_some hx

/-- From a place of the edited text a segment leads to a place of the source, without
going on along the line if that must not be. -/
def Segment.LeadsTo (everyChar : Bool) (segment : Segment) (place origin : Position) :
    Prop :=
  segment.origin.line = origin.line ∧
    segment.origin.column + (place.column - segment.column) = origin.column ∧
    (everyChar = true → segment.column = place.column)

namespace Layout

/-- Where the layout goes on. -/
def place (layout : Layout) : Position := ⟨layout.finished.length, layout.column⟩

/-- Text was laid out at the place. -/
def Passed (layout : Layout) (place : Position) : Prop :=
  place.line < layout.finished.length ∨
    (place.line = layout.finished.length ∧ place.column < layout.column)

def segmentAt? (layout : Layout) (place : Position) : Option Segment :=
  lastUpTo Segment.column layout.lines place

variable {layout : Layout} {place : Position}

theorem lines_eq (layout : Layout) :
    layout.lines = layout.finished.reverse ++ [layout.current.reverse] := by
  rw [lines, List.reverse_cons]

theorem advanceChar_newline (layout : Layout) :
    layout.advanceChar '\n' = ⟨layout.current.reverse :: layout.finished, [], 0⟩ := rfl

theorem advanceChar_of_ne {c : Char} (h : c ≠ '\n') (layout : Layout) :
    layout.advanceChar c =
      { layout with column := layout.column + Text.utf16Size c } := by
  rw [advanceChar, if_neg h]

theorem place_advanceChar {text : List Char} (h : layout.place = Position.behind text)
    (c : Char) : (layout.advanceChar c).place = Position.behind (text ++ [c]) := by
  rw [Position.behind_append_singleton, ← h]
  by_cases hc : c = '\n'
  · subst hc
    rfl
  · rw [if_neg hc, advanceChar_of_ne hc]
    rfl

theorem Passed.addSegment (h : layout.Passed place) (origin : Position) :
    (layout.addSegment origin).Passed place := h

theorem Passed.advanceChar (h : layout.Passed place) (c : Char) :
    (layout.advanceChar c).Passed place := by
  by_cases hc : c = '\n'
  · subst hc
    rw [advanceChar_newline]
    refine .inl ?_
    rw [List.length_cons]
    rcases h with h | ⟨h, -⟩ <;> omega
  · rw [advanceChar_of_ne hc]
    refine h.imp_right fun ⟨hline, hcolumn⟩ => ⟨hline, ?_⟩
    exact Nat.lt_add_right _ hcolumn

/-- A character passes the place where it is laid out. -/
theorem passed_advanceChar (layout : Layout) (c : Char) :
    (layout.advanceChar c).Passed layout.place := by
  by_cases hc : c = '\n'
  · subst hc
    exact .inl (Nat.lt_succ_self _)
  · rw [advanceChar_of_ne hc]
    exact .inr ⟨rfl, Nat.lt_add_of_pos_right (Text.utf16Size_pos c)⟩

/-- A new segment stands behind the places that were passed. -/
theorem segmentAt?_addSegment (h : layout.Passed place) (origin : Position) :
    (layout.addSegment origin).segmentAt? place = layout.segmentAt? place := by
  rw [segmentAt?, segmentAt?, lastUpTo, lastUpTo, lines_eq, lines_eq]
  rcases h with hline | ⟨hline, hcolumn⟩
  · have hlt : place.line < layout.finished.reverse.length := by simpa using hline
    rw [addSegment, List.getElem?_append_left hlt, List.getElem?_append_left hlt]
  · have hline' : place.line = layout.finished.reverse.length := by simpa using hline
    simp [addSegment, hline, Nat.not_le.mpr hcolumn]

/-- The end of a line changes nothing in it. -/
theorem segmentAt?_advanceChar (h : place.line ≤ layout.finished.length) (c : Char) :
    (layout.advanceChar c).segmentAt? place = layout.segmentAt? place := by
  by_cases hc : c = '\n'
  · subst hc
    have hlt : place.line <
        (layout.finished.reverse ++ [layout.current.reverse]).length := by
      simpa using Nat.lt_succ_of_le h
    rw [segmentAt?, segmentAt?, lastUpTo, lastUpTo, lines_eq, lines_eq,
      advanceChar_newline, List.reverse_cons, List.getElem?_append_left hlt]
  · rw [advanceChar_of_ne hc]
    rfl

theorem Passed.line_le (h : layout.Passed place) :
    place.line ≤ layout.finished.length := by
  rcases h with h | ⟨h, -⟩ <;> omega

/-- Where the layout goes on, the segment that was added last is found. -/
theorem segmentAt?_place
    (h : ∀ segment ∈ layout.current, segment.column ≤ layout.column) :
    layout.segmentAt? layout.place = layout.current.head? := by
  rw [segmentAt?, lastUpTo, lines_eq, place, ← List.length_reverse,
    List.getElem?_concat_length, Option.bind_eq_bind, Option.bind_some,
    List.reverse_reverse]
  cases hcurrent : layout.current with
  | nil => rfl
  | cons segment rest =>
      have hle := h segment (by simp [hcurrent])
      simp [hle]

/-! ## Characters that are traced -/

/-- A character that was laid out at a place is found where it stands in the source. -/
def Traces (everyChar : Bool) (source : List Char) (layout : Layout) (place : Position)
    (c : Char) (offset : Nat) : Prop :=
  ∃ before behind, source = before ++ c :: behind ∧ utf8Length before = offset ∧
    ∃ segment, layout.segmentAt? place = some segment ∧
      segment.LeadsTo everyChar place (Position.behind before)

/-- The last segment leads from where the layout goes on to a place of the source. -/
def Aims (everyChar : Bool) (layout : Layout) (origin : Position) : Prop :=
  ∃ segment, layout.current.head? = some segment ∧
    segment.LeadsTo everyChar layout.place origin

variable {everyChar : Bool} {source : List Char} {origin : Position}

theorem aims_addSegment (layout : Layout) (origin : Position) :
    (layout.addSegment origin).Aims everyChar origin :=
  ⟨⟨layout.column, origin⟩, rfl, rfl, by simp [addSegment, place], fun _ => rfl⟩

/-- Along a line the aim moves with the text. -/
theorem Aims.advanceChar (h : layout.Aims false origin) {c : Char} (hc : c ≠ '\n')
    (hle : ∀ segment ∈ layout.current, segment.column ≤ layout.column) :
    (layout.advanceChar c).Aims false (stepOrigin origin c) := by
  obtain ⟨segment, hhead, hline, hcolumn, -⟩ := h
  have := hle segment (List.mem_of_head? hhead)
  rw [advanceChar_of_ne hc, stepOrigin, if_neg hc]
  refine ⟨segment, hhead, hline, ?_, Bool.noConfusion⟩
  simp only [place] at hcolumn ⊢
  omega

/-- The layout stands where the trace ends, and its segments lead from each character
of the source in the trace to that character. -/
structure Follows (everyChar : Bool) (source : List Char) (layout : Layout)
    (trace : List (Char × Option Nat)) : Prop where
  place_eq : layout.place = Position.behind (trace.map Prod.fst)
  column_le : ∀ segment ∈ layout.current, segment.column ≤ layout.column
  traces : ∀ {shown c offset more}, trace = shown ++ (c, some offset) :: more →
    layout.Passed (Position.behind (shown.map Prod.fst)) ∧
      layout.Traces everyChar source (Position.behind (shown.map Prod.fst)) c offset

namespace Follows

variable {trace : List (Char × Option Nat)}

theorem empty : Follows everyChar source .empty [] where
  place_eq := rfl
  column_le := by simp [Layout.empty]
  traces h := by simp at h

theorem addSegment (h : Follows everyChar source layout trace) (origin : Position) :
    Follows everyChar source (layout.addSegment origin) trace where
  place_eq := h.place_eq
  column_le := by
    intro segment hm
    rcases List.mem_cons.mp hm with rfl | hm
    · exact Nat.le_refl _
    · exact h.column_le segment hm
  traces htrace := by
    obtain ⟨hpassed, before, behind, hs, ho, segment, hfound, hleads⟩ := h.traces htrace
    refine ⟨hpassed, before, behind, hs, ho, segment, ?_, hleads⟩
    rw [segmentAt?_addSegment hpassed, hfound]

theorem column_le_advanceChar (h : Follows everyChar source layout trace) (c : Char) :
    ∀ segment ∈ (layout.advanceChar c).current,
      segment.column ≤ (layout.advanceChar c).column := by
  by_cases hc : c = '\n'
  · subst hc
    exact fun _ hm => absurd hm List.not_mem_nil
  · rw [advanceChar_of_ne hc]
    exact fun segment hm => Nat.le_add_right_of_le (h.column_le segment hm)

/-- A character is laid out. If it is from the source, the last segment must aim at it. -/
theorem advanceChar (h : Follows everyChar source layout trace) (c : Char)
    {note : Option Nat}
    (hnote : ∀ offset, note = some offset → ∃ before behind,
      source = before ++ c :: behind ∧ utf8Length before = offset ∧
        layout.Aims everyChar (Position.behind before)) :
    Follows everyChar source (layout.advanceChar c) (trace ++ [(c, note)]) where
  place_eq := by
    rw [List.map_append, List.map_singleton]
    exact place_advanceChar h.place_eq c
  column_le := h.column_le_advanceChar c
  traces := by
    intro shown d offset more htrace
    rcases List.eq_nil_or_concat more with rfl | ⟨init, last, rfl⟩
    · -- The new character itself stands where the layout went on.
      obtain ⟨rfl, hlast⟩ := List.append_inj' htrace rfl
      obtain ⟨rfl, rfl⟩ : c = d ∧ note = some offset := by simpa using hlast
      obtain ⟨before, behind, hs, ho, segment, hhead, hleads⟩ := hnote offset rfl
      rw [← h.place_eq]
      refine ⟨passed_advanceChar layout c, before, behind, hs, ho, segment, ?_, hleads⟩
      rw [segmentAt?_advanceChar (Nat.le_refl _), segmentAt?_place h.column_le, hhead]
    · rw [List.concat_eq_append, ← List.cons_append, ← List.append_assoc] at htrace
      obtain ⟨hpassed, before, behind, hs, ho, segment, hfound, hleads⟩ :=
        h.traces (List.append_inj' htrace rfl).1
      refine ⟨hpassed.advanceChar c, before, behind, hs, ho, segment, ?_, hleads⟩
      rw [segmentAt?_advanceChar hpassed.line_le, hfound]

/-- Text without a place in the source is laid out. -/
theorem advance (h : Follows everyChar source layout trace) (text : List Char) :
    Follows everyChar source (layout.advance text) (trace ++ unplaced text) := by
  induction text generalizing layout trace with
  | nil => simpa [Layout.advance, unplaced] using h
  | cons c rest ih =>
      have hnext : Follows everyChar source (layout.advanceChar c)
          (trace ++ [(c, none)]) :=
        h.advanceChar c (by simp)
      simpa [Layout.advance, unplaced] using ih hnext

/-- A segment is added before a character of the source, or the last one aims at it. -/
theorem aim (h : Follows everyChar source layout trace) {atStart : Bool}
    (ha : (everyChar || atStart) = false → layout.Aims everyChar origin) :
    let aimed := if everyChar || atStart then layout.addSegment origin else layout
    Follows everyChar source aimed trace ∧ aimed.Aims everyChar origin := by
  cases hnew : everyChar || atStart with
  | true => exact ⟨h.addSegment origin, aims_addSegment layout origin⟩
  | false => exact ⟨h, ha hnew⟩

/-- Text of the source is laid out. It may go on from the segment that was added last. -/
theorem addSource {before text behind : List Char} {atStart : Bool}
    (hs : source = before ++ text ++ behind)
    (h : Follows everyChar source layout trace)
    (ha : (everyChar || atStart) = false →
      layout.Aims everyChar (Position.behind before)) :
    Follows everyChar source
      (layout.addSource everyChar atStart (Position.behind before) text)
      (trace ++ placed (utf8Length before) text) := by
  induction text generalizing before layout trace atStart with
  | nil => simpa [Layout.addSource, placed, Edit.withOffsets] using h
  | cons c rest ih =>
      obtain ⟨haimed, ha'⟩ := h.aim ha
      rw [Layout.addSource, stepOrigin_behind]
      generalize (if everyChar || atStart then layout.addSegment (Position.behind before)
        else layout) = aimed at haimed ha'
      have hs' : source = (before ++ [c]) ++ rest ++ behind := by simpa using hs
      have hnext : Follows everyChar source (aimed.advanceChar c)
          (trace ++ [(c, some (utf8Length before))]) :=
        haimed.advanceChar c fun offset hnote =>
          ⟨before, rest ++ behind, by simpa using hs, by simpa using hnote, ha'⟩
      have hgo : (everyChar || (c == '\n')) = false →
          (aimed.advanceChar c).Aims everyChar (Position.behind (before ++ [c])) := by
        intro hgo
        obtain ⟨rfl, hc⟩ := Bool.or_eq_false_iff.mp hgo
        rw [← stepOrigin_behind]
        exact ha'.advanceChar (by simpa using hc) haimed.column_le
      have hplaced : placed (utf8Length before) (c :: rest) =
          (c, some (utf8Length before)) :: placed (utf8Length (before ++ [c])) rest := by
        simp [placed, Edit.withOffsets, utf8Length_append, utf8Length]
      rw [hplaced]
      simpa using ih hs' hnext hgo

end Follows

end Layout

/-! ## Chunks -/

variable {everyChar : Bool} {source : List Char} {layout : Layout}
  {trace : List (Char × Option Nat)}

theorem Layout.Follows.layChunk {before piece behind : List Char} {chunk : Chunk}
    (h : layout.Follows everyChar source trace) (hc : chunk.Covers before piece)
    (hs : source = before ++ piece ++ behind) :
    (layChunk everyChar (LineIndex.ofSource source) layout chunk).Follows everyChar source
      (trace ++ chunk.traced) := by
  have hintro := h.advance chunk.intro
  have horigin : (LineIndex.ofSource source).position chunk.start =
      Position.behind before := by
    rw [hs, hc.start_eq, List.append_assoc, LineIndex.position_eq]
  rw [SourceMap.layChunk, horigin, Chunk.traced, ← List.append_assoc,
    ← List.append_assoc]
  refine Layout.Follows.advance ?_ chunk.outro
  cases he : chunk.isEdited with
  | true =>
      by_cases hnil : chunk.content = []
      · simpa [hnil, unplaced] using hintro
      · have hsegment := hintro.addSegment (Position.behind before)
        simpa [hnil] using hsegment.advance chunk.content
  | false =>
      rw [hc.content_eq he, hc.start_eq]
      exact hintro.addSource hs fun hstart => by simp at hstart

theorem Layout.Follows.layRow {before text behind : List Char} {row : List Chunk}
    (h : layout.Follows everyChar source trace) (ht : Tiles before text row)
    (hs : source = before ++ text ++ behind) :
    (row.foldl (SourceMap.layChunk everyChar (LineIndex.ofSource source)) layout).Follows
      everyChar source (trace ++ row.flatMap Chunk.traced) := by
  induction ht generalizing layout trace with
  | nil before => simpa using h
  | @cons before piece rest chunk row hc _ ih =>
      have hs' : source = before ++ piece ++ (rest ++ behind) := by simpa using hs
      simpa using ih (h.layChunk hc hs') (by simpa using hs)

/-- The segments of a buffer's text lead from each character that an unedited chunk shows
to the place of that character in the source. -/
theorem traces_linesOf {buffer : Buffer} (ht : buffer.Tiled)
    {shown more : List (Char × Option Nat)} {c : Char} {offset : Nat}
    (htrace : buffer.traced = shown ++ (c, some offset) :: more) :
    ∃ before behind, buffer.source = before ++ c :: behind ∧ utf8Length before = offset ∧
      ∃ segment, lastUpTo Segment.column (linesOf everyChar buffer)
          (Position.behind (shown.map Prod.fst)) = some segment ∧
        segment.LeadsTo everyChar (Position.behind (shown.map Prod.fst))
          (Position.behind before) := by
  have hintro : (Layout.empty.advance buffer.intro).Follows everyChar buffer.source
      (unplaced buffer.intro) := Layout.Follows.empty.advance buffer.intro
  have hrow := hintro.layRow ht (List.append_nil _).symm
  exact ((hrow.advance buffer.outro).traces htrace).2

/-! ## Maps -/

/-- The mappings of a buffer read back as the segments that were collected. -/
theorem readMappings?_ofBuffer (buffer : Buffer) (options : Options) :
    readMappings? (ofBuffer buffer options).mappings.toList =
      some ((linesOf options.everyChar buffer).map (·.map Entry.ofSegment)) := by
  have hlines : linesOf options.everyChar buffer ≠ [] := by
    simp [linesOf, Layout.lines]
  rw [ofBuffer, String.toList_ofList, readMappings?_encodeMappings hlines]

/-- A map leads from every character that an unedited chunk shows to its place in the
source. Its mappings are read by the rules of the format, and places are counted in the
texts: in what is rendered before the character, and in what stands before it in the
source. -/
theorem map_leads_to_source (source : List Char) (history : List Operation)
    (options : Options) :
    let buffer := (Buffer.ofSource source).run history
    buffer.traced.map Prod.fst = buffer.render ∧
    ∃ lines, readMappings? (ofBuffer buffer options).mappings.toList = some lines ∧
      ∀ shown c offset more, buffer.traced = shown ++ (c, some offset) :: more →
        ∃ before behind, source = before ++ c :: behind ∧ utf8Length before = offset ∧
          let place := Position.behind (shown.map Prod.fst)
          ∃ entry origin, lastUpTo Entry.column lines place = some entry ∧
            entry.target = some ⟨0, origin, none⟩ ∧ entry.column ≤ place.column ∧
            (Position.behind before).line = origin.line ∧
            (Position.behind before).column =
              origin.column + (place.column - entry.column) ∧
            (options.everyChar = true → entry.column = place.column) := by
  intro buffer
  have ht : buffer.Tiled := (Buffer.ofSource_tiled source).run history
  have hsource : buffer.source = source := by
    rw [Buffer.source_run (Buffer.ofSource_tiled source), Buffer.ofSource]
  refine ⟨buffer.map_fst_traced, _, readMappings?_ofBuffer buffer options, ?_⟩
  intro shown c offset more htrace
  obtain ⟨before, behind, hs, ho, segment, hfound, hline, hcolumn, hexact⟩ :=
    traces_linesOf ht htrace
  have hle : segment.column ≤ (Position.behind (shown.map Prod.fst)).column :=
    lastUpTo_column_le hfound
  refine ⟨before, behind, hsource ▸ hs, ho, .ofSegment segment, segment.origin, ?_, rfl,
    hle, hline.symm, hcolumn.symm, hexact⟩
  rw [lastUpTo_map]
  exact congrArg (·.map Entry.ofSegment) hfound

end ParseView.SourceMap
