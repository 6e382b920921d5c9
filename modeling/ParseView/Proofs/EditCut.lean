import ParseView.Proofs.EditTiling

/-!
# Cutting a row

A cut makes an offset an edge of the row. `cutRow_of_not_blocked` says everything it
can do: the row was in two parts already, or one chunk went on behind the offset and
its two halves take its place. A chunk that was replaced is the only thing in the way
of a cut, and it is found without touching the row. In particular the source is never
cut inside a character, because the halves of a chunk that covers a piece are pieces.

`cutRange_of_not_blocked` is why a range is edited whole or not at all. Both ends are
looked at in the row as it was, but the second cut is made in a row that the first one
has changed, perhaps in the very chunk that was looked at. It goes through: the row
behind the first edge meets the second offset as the whole row did, except that the
chunk around it may be a half, and the halves of a chunk that could be cut can be cut
again.
-/

namespace ParseView.Edit

open Text (utf8Length utf8Length_append slice?_append)

/-! ## Halves -/

/-- The chunk that is left in front of a cut, before which it covers `p`. -/
def Chunk.firstHalf (chunk : Chunk) (offset : Nat) (p : List Char) : Chunk :=
  { chunk with stop := offset, content := if chunk.isEdited then [] else p, outro := [] }

/-- The chunk behind a cut, behind which `q` is covered. -/
def Chunk.secondHalf (chunk : Chunk) (offset : Nat) (q : List Char) : Chunk where
  start := offset
  stop := chunk.stop
  content := if chunk.isEdited then [] else q
  intro := []
  outro := if chunk.isEdited then [] else chunk.outro
  isEdited := chunk.isEdited

section Halves

variable {before p q : List Char} {chunk : Chunk} {offset : Nat}

theorem Chunk.halves?_eq (hc : chunk.Covers before (p ++ q)) (after : List Char) :
    chunk.halves? (before ++ (p ++ (q ++ after))) (utf8Length (before ++ p)) =
      some (chunk.firstHalf (utf8Length (before ++ p)) p,
        chunk.secondHalf (utf8Length (before ++ p)) q) := by
  have hq : Text.slice? (utf8Length (before ++ p)) chunk.stop
      (before ++ (p ++ (q ++ after))) = some q := by
    rw [hc.stop_eq]
    simpa using slice?_append (before ++ p) q after
  have hp : Text.slice? chunk.start (utf8Length (before ++ p))
      (before ++ (p ++ (q ++ after))) = some p := by
    rw [hc.start_eq]
    simpa using slice?_append before p (q ++ after)
  cases he : chunk.isEdited
  · simp [Chunk.halves?, Chunk.firstHalf, Chunk.secondHalf, Chunk.ofSlice, hp, hq, he]
  · simp [Chunk.halves?, Chunk.firstHalf, Chunk.secondHalf, Chunk.ofSlice, Chunk.edit,
      hq, he]

theorem Chunk.firstHalf_covers (hp : p ≠ []) (hc : chunk.Covers before (p ++ q)) :
    (chunk.firstHalf (utf8Length (before ++ p)) p).Covers before p where
  ne_nil := hp
  start_eq := hc.start_eq
  stop_eq := rfl
  content_eq he := if_neg (by rw [show chunk.isEdited = false from he]; decide)

theorem Chunk.secondHalf_covers (hq : q ≠ []) (hc : chunk.Covers before (p ++ q)) :
    (chunk.secondHalf (utf8Length (before ++ p)) q).Covers (before ++ p) q where
  ne_nil := hq
  start_eq := rfl
  stop_eq := by
    rw [show (chunk.secondHalf _ q).stop = chunk.stop from rfl, hc.stop_eq]
    simp
  content_eq he := if_neg (by rw [show chunk.isEdited = false from he]; decide)

theorem Chunk.secondHalf_isReplaced : (chunk.secondHalf offset q).isReplaced = false := by
  cases he : chunk.isEdited <;> simp [Chunk.isReplaced, Chunk.secondHalf, he]

end Halves

/-! ## One cut -/

/-- A row and the two parts that a cut leaves. They are those on either side of an edge
that was there, or the chunk around the offset gives each of them a half. -/
inductive Cuts (offset : Nat) : List Chunk → List Chunk → List Chunk → Prop
  | edge {left right : List Chunk} : Cuts offset (left ++ right) left right
  | inside {left right : List Chunk} {chunk : Chunk} {p q : List Char} :
      chunk.surrounds offset = true → chunk.isReplaced = false →
      (chunk.isEdited = false → chunk.content = p ++ q) →
      Cuts offset (left ++ chunk :: right) (left ++ [chunk.firstHalf offset p])
        (chunk.secondHalf offset q :: right)

section Cut

variable {before a b after p q : List Char} {row left right : List Chunk}
  {chunk : Chunk} {offset : Nat}

theorem toCut?_edge (hl : Tiles before a left) (hr : Tiles (before ++ a) b right) :
    toCut? (utf8Length (before ++ a)) (left ++ right) = .ok none := by
  obtain ⟨h1, h2⟩ := stop_le_iff_edge hl hr rfl
  rw [toCut?, partitionPoint_append h1 h2, List.drop_left]
  cases right with
  | nil => rfl
  | cons chunk rest =>
      have hs : chunk.surrounds (utf8Length (before ++ a)) = false :=
        not_surrounds_of_edge hl hr (by simp)
      simp [hs]

theorem toCut?_inside (hp : p ≠ []) (hq : q ≠ []) (hl : Tiles before a left)
    (hc : chunk.Covers (before ++ a) (p ++ q))
    (hr : Tiles (before ++ a ++ (p ++ q)) b right) :
    toCut? (utf8Length (before ++ (a ++ p))) (left ++ chunk :: right) =
      if chunk.isReplaced then
        .error (.replaced chunk.start chunk.stop (utf8Length (before ++ (a ++ p))))
      else .ok (some (left, chunk, right)) := by
  have hs := surrounds_inside hp hq hc
  have h1 : ∀ x ∈ left,
      decide (x.stop ≤ utf8Length (before ++ (a ++ p))) = true := by
    intro x hx
    have := hl.stop_le hx
    simp only [utf8Length_append] at this ⊢
    exact decide_eq_true (by omega)
  have h2 : ∀ x ∈ chunk :: right,
      decide (x.stop ≤ utf8Length (before ++ (a ++ p))) = false := by
    rw [Chunk.surrounds_iff] at hs
    intro x hx
    rcases List.mem_cons.mp hx with rfl | hx
    · exact decide_eq_false (by omega)
    · have hlt := hr.lt_stop hx
      rw [← hc.stop_eq] at hlt
      exact decide_eq_false (by omega)
  rw [toCut?, partitionPoint_append h1 h2, List.drop_left, List.take_left]
  simp [hs]

/-- A replaced chunk around the offset refuses the cut. -/
theorem toCut?_of_blocked (h : Tiles before (a ++ b) row)
    (ho : offset = utf8Length (before ++ a)) (hb : Blocked offset row) :
    ∃ start stop, toCut? offset row = .error (.replaced start stop offset) := by
  subst ho
  cases h.located rfl with
  | edge hl hr => exact absurd hb (not_blocked_edge hl hr)
  | @inside _ _ _ _ chunk _ _ hp hq hl hc hr =>
      refine ⟨chunk.start, chunk.stop, ?_⟩
      rw [toCut?_inside hp hq hl hc hr, if_pos ((blocked_inside hp hq hl hc hr).mp hb)]

theorem toCut?_of_not_blocked (h : Tiles before (a ++ b) row)
    (ho : offset = utf8Length (before ++ a)) (hb : ¬ Blocked offset row) :
    ∃ place, toCut? offset row = .ok place := by
  subst ho
  cases h.located rfl with
  | edge hl hr => exact ⟨_, toCut?_edge hl hr⟩
  | @inside _ _ _ _ chunk left right hp hq hl hc hr =>
      refine ⟨some (left, chunk, right), ?_⟩
      rw [toCut?_inside hp hq hl hc hr,
        if_neg (mt (blocked_inside hp hq hl hc hr).mpr hb)]

/-- Any other row is cut, into two rows that stand for the two parts of its text. -/
theorem cutRow_of_not_blocked {source : List Char} (h : Tiles before (a ++ b) row)
    (hs : source = before ++ (a ++ b) ++ after)
    (ho : offset = utf8Length (before ++ a)) (hb : ¬ Blocked offset row) :
    ∃ left right, cutRow source offset row = .ok (left ++ right) ∧
      Cuts offset row left right ∧ Tiles before a left ∧ Tiles (before ++ a) b right := by
  subst hs ho
  cases h.located rfl with
  | @edge _ _ left right hl hr =>
      refine ⟨left, right, ?_, .edge, hl, hr⟩
      rw [cutRow, toCut?_edge hl hr]
      rfl
  | @inside a b p q chunk left right hp hq hl hc hr =>
      have hrep := mt (blocked_inside hp hq hl hc hr).mpr hb
      have hhalves := Chunk.halves?_eq hc (b ++ after)
      simp only [List.append_assoc] at hhalves ⊢
      refine ⟨left ++ [chunk.firstHalf (utf8Length (before ++ (a ++ p))) p],
        chunk.secondHalf (utf8Length (before ++ (a ++ p))) q :: right, ?_, ?_, ?_, ?_⟩
      · rw [cutRow, toCut?_inside hp hq hl hc hr, if_neg hrep]
        simp [bind, Except.bind, pure, Except.pure, hhalves]
      · exact .inside (surrounds_inside hp hq hc) (by simpa using hrep) hc.content_eq
      · have := Chunk.firstHalf_covers hp hc
        rw [List.append_assoc] at this
        exact hl.append (.singleton this)
      · have := Chunk.secondHalf_covers hq hc
        simp only [List.append_assoc] at this hr
        exact .cons (by simpa using this) (by simpa using hr)

end Cut

/-! ## Two cuts -/

/-- Neither half of a chunk that was cut is in the way of another cut. -/
theorem Cuts.not_blocked {offset other : Nat} {row left right : List Chunk}
    (h : Cuts offset row left right) (hb : ¬ Blocked other row) :
    ¬ Blocked other right := by
  rintro ⟨chunk, hm, hs, hrep⟩
  cases h with
  | edge => exact hb ⟨chunk, List.mem_append_right _ hm, hs, hrep⟩
  | inside _ _ _ =>
      rcases List.mem_cons.mp hm with rfl | hm
      · rw [Chunk.secondHalf_isReplaced] at hrep
        exact Bool.noConfusion hrep
      · exact hb ⟨chunk, by simp [hm], hs, hrep⟩

section Append

variable {offset : Nat} {before text : List Char} {left row : List Chunk}

/-- Chunks that end before an offset have no part in a cut there. -/
theorem toCut?_append (hl : ∀ chunk ∈ left, decide (chunk.stop ≤ offset) = true)
    (ht : Tiles before text row) :
    toCut? offset (left ++ row) =
      (toCut? offset row).map (Option.map fun place => (left ++ place.1, place.2)) := by
  obtain ⟨passed, rest, rfl, hpassed, hrest⟩ := ht.stop_le_first offset
  have hboth : ∀ chunk ∈ left ++ passed, decide (chunk.stop ≤ offset) = true :=
    List.forall_mem_append.mpr ⟨hl, hpassed⟩
  rw [← List.append_assoc, toCut?, toCut?, partitionPoint_append hboth hrest,
    partitionPoint_append hpassed hrest, List.drop_left, List.drop_left, List.take_left,
    List.take_left]
  cases rest with
  | nil => rfl
  | cons chunk behind =>
      simp only []
      split
      · rfl
      · split <;> rfl

theorem cutRow_append (hl : ∀ chunk ∈ left, decide (chunk.stop ≤ offset) = true)
    (source : List Char) (ht : Tiles before text row) :
    cutRow source offset (left ++ row) = (cutRow source offset row).map (left ++ ·) := by
  rw [cutRow, cutRow, toCut?_append hl ht]
  cases toCut? offset row with
  | error refusal => rfl
  | ok place =>
      cases place with
      | none => rfl
      | some place =>
          simp only [Except.map, Option.map, bind, Except.bind]
          cases place.2.1.halves? source offset with
          | none => rfl
          | some halves => simp [pure, Except.pure]

end Append

/-! ## Cuts of a buffer -/

/-- An edit is refused with the buffer as it was, and not for a cut in a character. -/
def Refuses {α : Type} (edit : Editing α) (buffer : Buffer) : Prop :=
  ∃ refusal, (∀ offset, refusal ≠ .torn offset) ∧ edit.run buffer = .error refusal buffer

/-- What is refused by its first step is refused. -/
theorem Refuses.bind {α β : Type} {edit : Editing α} {buffer : Buffer}
    (h : Refuses edit buffer) (rest : α → Editing β) : Refuses (edit >>= rest) buffer := by
  obtain ⟨refusal, hne, hrun⟩ := h
  exact ⟨refusal, hne, by rw [EStateM.run_bind, hrun]⟩

/-- What is refused behind a step that leaves the buffer as it was is refused. -/
theorem Refuses.after {α β : Type} {edit : Editing α} {buffer : Buffer} {a : α}
    {rest : α → Editing β} (hrun : edit.run buffer = .ok a buffer)
    (h : Refuses (rest a) buffer) : Refuses (edit >>= rest) buffer := by
  obtain ⟨refusal, hne, hrest⟩ := h
  exact ⟨refusal, hne, by rw [EStateM.run_bind, hrun]; exact hrest⟩

namespace Editing

theorem run_ofExcept {α : Type} (x : Except Refusal α) (buffer : Buffer) :
    (ofExcept x : Editing α).run buffer =
      match x with
      | .ok a => .ok a buffer
      | .error refusal => .error refusal buffer := by
  cases x <;> rfl

theorem checkCut_run (offset : Nat) (buffer : Buffer) :
    (checkCut offset).run buffer =
      match toCut? offset buffer.chunks with
      | .ok _ => .ok () buffer
      | .error refusal => .error refusal buffer := by
  simp only [checkCut, EStateM.run_bind, EStateM.run_get, run_ofExcept]
  cases toCut? offset buffer.chunks <;> rfl

theorem cut_run (offset : Nat) (buffer : Buffer) :
    (cut offset).run buffer =
      match cutRow buffer.source offset buffer.chunks with
      | .ok chunks => .ok () { buffer with chunks := chunks }
      | .error refusal => .error refusal buffer := by
  simp only [cut, EStateM.run_bind, EStateM.run_get, run_ofExcept]
  cases cutRow buffer.source offset buffer.chunks <;> rfl

variable {buffer : Buffer} {a b m c : List Char} {start stop offset : Nat}

theorem checkCut_of_blocked (ht : Tiles [] (a ++ b) buffer.chunks)
    (ho : offset = utf8Length a) (hb : Blocked offset buffer.chunks) :
    Refuses (checkCut offset) buffer := by
  obtain ⟨first, last, h⟩ := toCut?_of_blocked ht ho hb
  exact ⟨.replaced first last offset, by simp, by rw [checkCut_run, h]⟩

theorem checkCut_of_not_blocked (ht : Tiles [] (a ++ b) buffer.chunks)
    (ho : offset = utf8Length a) (hb : ¬ Blocked offset buffer.chunks) :
    (checkCut offset).run buffer = .ok () buffer := by
  obtain ⟨place, h⟩ := toCut?_of_not_blocked ht ho hb
  rw [checkCut_run, h]

theorem cut_of_blocked (ht : Tiles [] (a ++ b) buffer.chunks)
    (ho : offset = utf8Length a) (hb : Blocked offset buffer.chunks) :
    Refuses (cut offset) buffer := by
  obtain ⟨first, last, h⟩ := toCut?_of_blocked ht ho hb
  have hrow : cutRow buffer.source offset buffer.chunks =
      .error (.replaced first last offset) := by
    rw [cutRow, h]
    rfl
  exact ⟨.replaced first last offset, by simp, by rw [cut_run, hrow]⟩

/-- A replaced chunk around either end refuses the range while the row is still whole. -/
theorem cutRange_of_blocked (ht : Tiles [] (a ++ (m ++ c)) buffer.chunks)
    (h1 : start = utf8Length a) (h2 : stop = utf8Length (a ++ m))
    (hb : Blocked start buffer.chunks ∨ Blocked stop buffer.chunks) :
    Refuses (cutRange start stop) buffer := by
  by_cases hb1 : Blocked start buffer.chunks
  · exact (checkCut_of_blocked ht h1 hb1).bind _
  · have ht' : Tiles [] ((a ++ m) ++ c) buffer.chunks := by simpa using ht
    have h := checkCut_of_blocked ht' h2 (hb.resolve_left hb1)
    exact .after (checkCut_of_not_blocked ht h1 hb1) (h.bind _)

/-- Otherwise both cuts are made, and the row is in three parts. -/
theorem cutRange_of_not_blocked (ht : Tiles [] (a ++ (m ++ c)) buffer.chunks)
    (hs : buffer.source = a ++ (m ++ c))
    (h1 : start = utf8Length a) (h2 : stop = utf8Length (a ++ m))
    (hb1 : ¬ Blocked start buffer.chunks) (hb2 : ¬ Blocked stop buffer.chunks) :
    ∃ left rest inside right,
      (cutRange start stop).run buffer =
        .ok () { buffer with chunks := left ++ (inside ++ right) } ∧
      Cuts start buffer.chunks left rest ∧ Cuts stop rest inside right ∧
      Tiles [] a left ∧ Tiles a m inside ∧ Tiles (a ++ m) c right := by
  have ht' : Tiles [] ((a ++ m) ++ c) buffer.chunks := by simpa using ht
  have hcheck1 := checkCut_of_not_blocked ht h1 hb1
  have hcheck2 := checkCut_of_not_blocked ht' h2 hb2
  have hwhole : buffer.source = [] ++ (a ++ (m ++ c)) ++ [] := by simpa using hs
  obtain ⟨left, rest, hcut1, hc1, hl, hr⟩ := cutRow_of_not_blocked ht hwhole h1 hb1
  -- The row behind the first edge meets the second offset as the whole row did.
  have hbehind : buffer.source = ([] ++ a) ++ (m ++ c) ++ [] := by simpa using hs
  obtain ⟨inside, right, hcut2, hc2, hi, ho⟩ :=
    cutRow_of_not_blocked hr hbehind h2 (hc1.not_blocked hb2)
  have hleft : ∀ chunk ∈ left, decide (chunk.stop ≤ stop) = true := by
    intro chunk hm
    have := hl.stop_le hm
    rw [List.nil_append] at this
    rw [h2, utf8Length_append]
    exact decide_eq_true (by omega)
  refine ⟨left, rest, inside, right, ?_, hc1, hc2, hl, by simpa using hi,
    by simpa using ho⟩
  simp only [cutRange, EStateM.run_bind, hcheck1, hcheck2, cut_run, hcut1,
    cutRow_append hleft _ hr, hcut2, Except.map]

end Editing

end ParseView.Edit
