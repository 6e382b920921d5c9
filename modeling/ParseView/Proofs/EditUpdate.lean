import ParseView.Proofs.EditFrame

/-!
# What an update keeps

An update puts its text in the place of the first chunk of its range and empties the
others, and the first chunk keeps what was inserted on either side of it. On the left
side that is the text at the start of the range. On the right side it is text at the end
of the range only where the range is one chunk: where it was cut before, it is whatever
was inserted to the left of the first cut, inside the range. `update_keeps_iff` says
exactly what is shown in the place of the range, and `update_keeps_inner_text` that text
from inside it can be.
-/

namespace ParseView.Edit

/-! ## The chunks of a range -/

section Spans

variable {start stop : Nat} {first second : Chunk} {row rest : List Chunk}

theorem Spans.start_eq (h : Spans start stop (first :: rest)) : first.start = start :=
  h.start_of_head first rfl

/-- Behind its first chunk a range goes on where that one ends. -/
theorem Spans.tail (h : Spans start stop (first :: second :: rest)) :
    Spans first.stop stop (second :: rest) where
  ne_nil := List.cons_ne_nil _ _
  start_of_head chunk hm := by
    obtain rfl : second = chunk := Option.some.inj hm
    exact (h.adjacent [] first second rest rfl).symm
  stop_of_getLast chunk hm := h.stop_of_getLast chunk (by simpa using hm)
  adjacent left chunk next right hrow :=
    h.adjacent (first :: left) chunk next right (by simp [hrow])
  start_lt_stop chunk hm := h.start_lt_stop chunk (List.mem_cons_of_mem _ hm)

theorem Spans.start_lt (h : Spans start stop row) : start < stop := by
  induction row generalizing start with
  | nil => exact absurd rfl h.ne_nil
  | cons first rest ih =>
      have hstart : first.start = start := h.start_eq
      have hlt : first.start < first.stop := h.start_lt_stop first (by simp)
      cases rest with
      | nil =>
          have hstop : first.stop = stop := h.stop_of_getLast first rfl
          omega
      | cons second rest =>
          have hrest : first.stop < stop := ih h.tail
          omega

/-- The first of several chunks ends inside the range. -/
theorem Spans.stop_within (h : Spans start stop (first :: rest)) (hne : rest ≠ []) :
    start < first.stop ∧ first.stop < stop := by
  obtain ⟨second, more, rfl⟩ := List.exists_cons_of_ne_nil hne
  have hlt : first.start < first.stop := h.start_lt_stop first (by simp)
  exact ⟨h.start_eq ▸ hlt, h.tail.start_lt⟩

end Spans

/-! ## Updating a range -/

section Update

variable {buffer next : Buffer} {start stop : Nat} {content : List Char} {first : Chunk}
  {rest : List Chunk}

/-- A range that can be updated is valid and not empty, and nothing is in its way. -/
theorem Buffer.free_of_update (ht : buffer.Tiled)
    (h : buffer.apply (.update start stop content) = .ok next) :
    start < stop ∧ ¬ buffer.InvalidRange start stop ∧
      rangeObstacle? start stop buffer.chunks = none := by
  -- An update is refused exactly where an overwrite of the same range is.
  rcases apply_cases ht (.update start stop content) with
    ⟨-, ⟨refusal, -, herr⟩, -⟩ | ⟨hfree, -⟩
  · rw [herr] at h
    exact nomatch h
  · rcases apply_cases ht (.overwrite start stop content) with ⟨hrefused, -⟩ | ⟨-, written, hwritten, -⟩
    · exact absurd hrefused hfree
    · exact free_of_overwrite ht hwritten

/-- The first chunk keeps what was inserted on both sides of it, the others keep
nothing. -/
theorem flatMap_render_replaceRow_keep :
    (replaceRow content true (first :: rest)).flatMap Chunk.render =
      first.intro ++ content ++ first.outro := by
  simp [replaceRow, Chunk.edit, Chunk.render, List.flatMap_map]

end Update

/-- An update that is accepted leaves what lies outside its range as it is. In the place
of the range it shows the text, what was inserted to the right of the start, and what
was inserted behind the first chunk of the range, and nothing else. If the range is cut
inside, that chunk ends inside, too. So the range shows what was inserted at its start
with the text, or this with what was inserted at its end, exactly if the first chunk has
nothing behind it or the same as the last one. -/
theorem update_keeps_iff (source : List Char) (history : List Operation) {start stop : Nat}
    {text : List Char} {next : Buffer}
    (h : ((Buffer.ofSource source).run history).apply (.update start stop text) = .ok next) :
    let buffer := (Buffer.ofSource source).run history
    ∃ row left first rest right inside',
      (Editing.cutRange start stop).run buffer = .ok () { buffer with chunks := row } ∧
      Divided start stop row left (first :: rest) right ∧
      next = { buffer with chunks := left ++ (inside' ++ right) } ∧
      inside'.map Chunk.bounds = (first :: rest).map Chunk.bounds ∧
      inside'.flatMap Chunk.render = first.intro ++ text ++ first.outro ∧
      (rest ≠ [] → start < first.stop ∧ first.stop < stop) ∧
      ∀ last ∈ (first :: rest).getLast?,
        (inside'.flatMap Chunk.render = first.intro ++ text ∨
          inside'.flatMap Chunk.render = first.intro ++ text ++ last.outro ↔
        first.outro = [] ∨ first.outro = last.outro) := by
  intro buffer
  have ht : buffer.Tiled := (Buffer.ofSource_tiled source).run history
  obtain ⟨hlt, hv, hfree⟩ := Buffer.free_of_update ht h
  obtain ⟨row, left, inside, right, hrun, hdivided, hedit⟩ := Buffer.exists_divided ht hv hlt hfree
  obtain ⟨first, rest, rfl⟩ := List.exists_cons_of_ne_nil hdivided.spans.ne_nil
  have hnext : next = { buffer with
      chunks := left ++ (replaceRow text true (first :: rest) ++ right) } := by
    rw [← hedit]
    exact Except.ok.inj (h.symm.trans (Buffer.apply_free ht hv hfree hlt rfl))
  refine ⟨row, left, first, rest, right, _, hrun, hdivided, hnext, map_bounds_replaceRow,
    flatMap_render_replaceRow_keep, hdivided.spans.stop_within, fun last _ => ?_⟩
  rw [flatMap_render_replaceRow_keep]
  exact or_congr List.append_right_eq_self (List.append_right_inj _)

/-- Over a range in two pieces, with text on the left of its start, on the right of it
and behind its second piece. -/
theorem update_keeps_iff_over_pieces :
    let history : List Operation := [.appendLeft 1 ['l'], .appendRight 1 ['r'],
      .appendRight 2 ['s'], .appendLeft 3 ['e']]
    let buffer := (Buffer.ofSource ['a', 'b', 'c', 'd']).run history
    let next := buffer.perform (.update 1 3 ['T'])
    buffer.apply (.update 1 3 ['T']) = .ok next ∧
    buffer.render = ['a', 'l', 'r', 'b', 's', 'c', 'e', 'd'] ∧
    next.render = ['a', 'l', 'r', 'T', 'd'] ∧
    ∃ row left first rest right inside',
      (Editing.cutRange 1 3).run buffer = .ok () { buffer with chunks := row } ∧
      Divided 1 3 row left (first :: rest) right ∧
      next = { buffer with chunks := left ++ (inside' ++ right) } ∧
      inside'.flatMap Chunk.render = first.intro ++ ['T'] ++ first.outro := by
  intro history buffer next
  have hnext : buffer.apply (.update 1 3 ['T']) = .ok next := by decide +kernel
  obtain ⟨row, left, first, rest, right, inside', hrun, hdivided, heq, -, hshown, -⟩ :=
    update_keeps_iff ['a', 'b', 'c', 'd'] history hnext
  exact ⟨hnext, by decide +kernel, by decide +kernel,
    row, left, first, rest, right, inside', hrun, hdivided, heq, hshown⟩

/-- Text inserted in the middle of the source stays when all of it is updated, although
nothing was inserted at either end. -/
theorem update_keeps_inner_text :
    let buffer := (Buffer.ofSource ['a', 'b', 'c']).run [.appendLeft 1 ['X']]
    let next := buffer.perform (.update 0 3 ['T'])
    buffer.apply (.update 0 3 ['T']) = .ok next ∧
    (Editing.cutRange 0 3).run buffer = .ok () buffer ∧
    buffer.chunks.map Chunk.bounds = [(0, 1), (1, 3)] ∧
    next.render = ['T', 'X'] ∧
    ∀ first ∈ buffer.chunks.head?, ∀ last ∈ buffer.chunks.getLast?,
      ¬ (next.chunks.flatMap Chunk.render = first.intro ++ ['T'] ∨
        next.chunks.flatMap Chunk.render = first.intro ++ ['T'] ++ last.outro) :=
  ⟨by decide +kernel, by with_unfolding_all rfl, by decide +kernel, by decide +kernel,
    by decide +kernel⟩

end ParseView.Edit
