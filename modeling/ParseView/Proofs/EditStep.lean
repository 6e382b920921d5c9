import ParseView.Proofs.EditCut

/-!
# What an edit does

One lemma for each way to edit says what it leaves, for a buffer whose row stands for
its source, and one says when it is refused. After a cut the row is in parts that are
told apart by their texts, and the searches for a chunk to change come out at the ends
of these parts. `insertedLeft`, `insertedRight` and `replaceRow` are the rows that are
left, and later proofs read them instead of the steps.

An edit that is refused leaves the buffer as it was, although its steps work in place.
For an insert this is so because its one cut is the last thing that can fail; for a
range it is `cutRange_of_blocked`.
-/

namespace ParseView.Edit

open Text (utf8Length utf8Length_append isBoundary isBoundary_iff)

/-- The row of a buffer stands for its source. -/
def Buffer.Tiled (buffer : Buffer) : Prop := Tiles [] buffer.source buffer.chunks

/-- An offset behind the source or inside one of its characters. -/
def Buffer.Invalid (buffer : Buffer) (offset : Nat) : Prop :=
  utf8Length buffer.source < offset ∨ isBoundary offset buffer.source = false

theorem Buffer.not_invalid_iff {buffer : Buffer} {offset : Nat} :
    ¬ buffer.Invalid offset ↔ ∃ a b, buffer.source = a ++ b ∧ offset = utf8Length a := by
  constructor
  · intro h
    have hb : isBoundary offset buffer.source = true := by
      simpa using fun hf => h (.inr hf)
    obtain ⟨a, b, hs, ho⟩ := isBoundary_iff.mp hb
    exact ⟨a, b, hs, ho.symm⟩
  · rintro ⟨a, b, hs, ho⟩ (h | h)
    · rw [hs, ho, utf8Length_append] at h
      omega
    · rw [isBoundary_iff.mpr ⟨a, b, hs, ho.symm⟩] at h
      exact Bool.noConfusion h

/-! ## The texts beside an edge -/

/-- A buffer with its row in two parts and the text changed that is inserted to the
left of the edge between them. -/
def Buffer.insertedLeft (buffer : Buffer) (f : List Char → List Char)
    (left right : List Chunk) : Buffer :=
  match left.getLast? with
  | none => { buffer with intro := f buffer.intro, chunks := right }
  | some chunk =>
      { buffer with
        chunks := left.dropLast ++ { chunk with outro := f chunk.outro } :: right }

/-- The same for the text to the right of the edge. -/
def Buffer.insertedRight (buffer : Buffer) (f : List Char → List Char)
    (left right : List Chunk) : Buffer :=
  match right with
  | [] => { buffer with outro := f buffer.outro, chunks := left }
  | chunk :: rest =>
      { buffer with chunks := left ++ { chunk with intro := f chunk.intro } :: rest }

section Inserted

variable {buffer : Buffer} {a b : List Char} {left right : List Chunk} {chunk : Chunk}
  {f : List Char → List Char}

theorem Buffer.insertedLeft_nil :
    buffer.insertedLeft f [] right =
      { buffer with intro := f buffer.intro, chunks := right } := rfl

theorem Buffer.insertedLeft_concat :
    buffer.insertedLeft f (left ++ [chunk]) right =
      { buffer with
        chunks := left ++ { chunk with outro := f chunk.outro } :: right } := by
  rw [Buffer.insertedLeft, List.getLast?_concat, List.dropLast_concat]

theorem changeAt?_stop_nil (hr : Tiles [] b right) (g : Chunk → Chunk) :
    changeAt? Chunk.stop 0 g right = none := by
  have hnone : partitionPoint (fun chunk : Chunk => decide (chunk.stop < 0))
      ([] ++ right) = 0 := partitionPoint_append (by simp) (by simp)
  rw [List.nil_append] at hnone
  rw [changeAt?, hnone, List.drop_zero]
  cases hr with
  | nil => rfl
  | cons hc _ =>
      have hlt := hc.start_lt_stop
      exact if_neg (by omega)

/-- The search for the chunk that ends at an edge finds the last one in front of it. -/
theorem changeAt?_stop_concat (hl : Tiles [] a (left ++ [chunk])) (hr : Tiles a b right)
    (g : Chunk → Chunk) :
    changeAt? Chunk.stop (utf8Length a) g ((left ++ [chunk]) ++ right) =
      some (left ++ g chunk :: right) := by
  obtain ⟨a', p, rfl, hl', hp⟩ := hl.of_append
  obtain ⟨piece, rest, rfl, hc, hnil⟩ := hp.of_cons
  obtain rfl : rest = [] := by simpa using hnil.eq_nil_iff
  have hstop : chunk.stop = utf8Length (a' ++ (piece ++ [])) := by
    simpa using hc.stop_eq
  have h1 : ∀ x ∈ left, decide (x.stop < utf8Length (a' ++ (piece ++ []))) = true := by
    intro x hx
    have hle := hl'.stop_le hx
    have hlt := hc.start_lt_stop
    rw [hc.start_eq] at hlt
    exact decide_eq_true (by omega)
  have h2 : ∀ x ∈ chunk :: right,
      decide (x.stop < utf8Length (a' ++ (piece ++ []))) = false := by
    intro x hx
    rcases List.mem_cons.mp hx with rfl | hx
    · exact decide_eq_false (by omega)
    · have hlt := hr.lt_stop hx
      exact decide_eq_false (by omega)
  rw [changeAt?, List.append_assoc, List.singleton_append, partitionPoint_append h1 h2,
    List.drop_left, List.take_left]
  simp [hstop]

/-- The search for the chunk that begins at an edge finds the first one behind it. -/
theorem changeAt?_start (hl : Tiles [] a left) (hr : Tiles a b right)
    (g : Chunk → Chunk) :
    changeAt? Chunk.start (utf8Length a) g (left ++ right) =
      match right with
      | [] => none
      | chunk :: rest => some (left ++ g chunk :: rest) := by
  obtain ⟨h1, h2⟩ := start_lt_iff_edge hl hr rfl
  rw [List.nil_append] at h1 h2
  rw [changeAt?, partitionPoint_append h1 h2, List.drop_left, List.take_left]
  cases hr with
  | nil => rfl
  | cons hc _ => simp [hc.start_eq]

end Inserted

namespace Editing

variable {buffer : Buffer} {a b m c : List Char} {start stop offset : Nat}
  {f : List Char → List Char} {text : List Char} {keepInserts : Bool}

/-! ## Checks -/

theorem checkOffset_run (offset : Nat) (buffer : Buffer) :
    (checkOffset offset).run buffer =
      if utf8Length buffer.source < offset then
        .error (.outOfBounds offset (utf8Length buffer.source)) buffer
      else if isBoundary offset buffer.source = true then .ok () buffer
      else .error (.notBoundary offset) buffer := by
  simp only [checkOffset, EStateM.run_bind, EStateM.run_get]
  split
  · rfl
  · cases isBoundary offset buffer.source <;> rfl

theorem checkOffset_of_valid (hv : ¬ buffer.Invalid offset) :
    (checkOffset offset).run buffer = .ok () buffer := by
  rw [Buffer.Invalid, not_or, Bool.not_eq_false] at hv
  rw [checkOffset_run, if_neg hv.1, if_pos hv.2]

theorem checkOffset_of_invalid (hv : buffer.Invalid offset) :
    Refuses (checkOffset offset) buffer := by
  rw [Refuses, checkOffset_run]
  split
  · exact ⟨_, by simp, rfl⟩
  · next h =>
      rw [if_neg (by simpa using hv.resolve_left h)]
      exact ⟨_, by simp, rfl⟩

theorem checkRange_of_valid (hle : start ≤ stop) (h1 : ¬ buffer.Invalid start)
    (h2 : ¬ buffer.Invalid stop) :
    (checkRange start stop).run buffer = .ok () buffer := by
  rw [checkRange, if_neg (Nat.not_lt.mpr hle), EStateM.run_bind,
    checkOffset_of_valid h1]
  exact checkOffset_of_valid h2

theorem checkRange_of_invalid
    (h : stop < start ∨ buffer.Invalid start ∨ buffer.Invalid stop) :
    Refuses (checkRange start stop) buffer := by
  rw [checkRange]
  split
  · exact ⟨.reversed start stop, by simp, rfl⟩
  · next hle =>
      by_cases h1 : buffer.Invalid start
      · exact (checkOffset_of_invalid h1).bind _
      · have h2 := checkOffset_of_invalid ((h.resolve_left hle).resolve_left h1)
        exact .after (checkOffset_of_valid h1) h2

/-! ## Inserts -/

theorem insertLeft_of_not_blocked (ht : buffer.Tiled) (hs : buffer.source = a ++ b)
    (ho : offset = utf8Length a) (hb : ¬ Blocked offset buffer.chunks) :
    ∃ left right,
      (insertLeft offset f).run buffer = .ok () (buffer.insertedLeft f left right) ∧
      Cuts offset buffer.chunks left right ∧ Tiles [] a left ∧ Tiles a b right := by
  have hv := Buffer.not_invalid_iff.mpr ⟨a, b, hs, ho⟩
  have ht' : Tiles [] (a ++ b) buffer.chunks := hs ▸ ht
  have hwhole : buffer.source = [] ++ (a ++ b) ++ [] := by simpa using hs
  obtain ⟨left, right, hcut, hcuts, hl, hr⟩ :=
    cutRow_of_not_blocked ht' hwhole (by simpa using ho) hb
  refine ⟨left, right, ?_, hcuts, hl, by simpa using hr⟩
  simp only [insertLeft, EStateM.run_bind, checkOffset_of_valid hv, cut_run, hcut,
    EStateM.run_modify]
  rcases List.eq_nil_or_concat left with rfl | ⟨init, chunk, rfl⟩
  · obtain rfl : a = [] := by simpa using hl.eq_nil_iff
    rw [ho, List.nil_append, show utf8Length [] = 0 from rfl,
      changeAt?_stop_nil (by simpa using hr)]
    rfl
  · rw [List.concat_eq_append] at hl ⊢
    rw [ho, changeAt?_stop_concat hl (by simpa using hr), Buffer.insertedLeft_concat]

theorem insertRight_of_not_blocked (ht : buffer.Tiled) (hs : buffer.source = a ++ b)
    (ho : offset = utf8Length a) (hb : ¬ Blocked offset buffer.chunks) :
    ∃ left right,
      (insertRight offset f).run buffer = .ok () (buffer.insertedRight f left right) ∧
      Cuts offset buffer.chunks left right ∧ Tiles [] a left ∧ Tiles a b right := by
  have hv := Buffer.not_invalid_iff.mpr ⟨a, b, hs, ho⟩
  have ht' : Tiles [] (a ++ b) buffer.chunks := hs ▸ ht
  have hwhole : buffer.source = [] ++ (a ++ b) ++ [] := by simpa using hs
  obtain ⟨left, right, hcut, hcuts, hl, hr⟩ :=
    cutRow_of_not_blocked ht' hwhole (by simpa using ho) hb
  rw [List.nil_append] at hr
  refine ⟨left, right, ?_, hcuts, hl, hr⟩
  simp only [insertRight, EStateM.run_bind, checkOffset_of_valid hv, cut_run, hcut,
    EStateM.run_modify]
  rw [ho, changeAt?_start hl hr]
  cases right with
  | nil => rw [List.append_nil]; rfl
  | cons chunk rest => rfl

/-- An insert whose check or cut is refused has changed nothing yet. -/
theorem checkedCut_of_refused (ht : buffer.Tiled)
    (h : buffer.Invalid offset ∨ Blocked offset buffer.chunks) (rest : Editing Unit) :
    Refuses (do checkOffset offset; cut offset; rest) buffer := by
  by_cases hv : buffer.Invalid offset
  · exact (checkOffset_of_invalid hv).bind _
  · obtain ⟨a, b, hs, ho⟩ := Buffer.not_invalid_iff.mp hv
    have ht' : Tiles [] (a ++ b) buffer.chunks := hs ▸ ht
    have hcut := cut_of_blocked ht' ho (h.resolve_left hv)
    exact .after (checkOffset_of_valid hv) (hcut.bind _)

/-! ## Ranges -/

/-- Once a row is in three parts, the chunks between the edges are the middle part. -/
theorem replaceBetween_eq {left inside right : List Chunk} (hl : Tiles [] a left)
    (hi : Tiles a m inside) (hr : Tiles (a ++ m) c right) :
    replaceBetween (utf8Length a) (utf8Length (a ++ m)) text keepInserts
        (left ++ (inside ++ right)) =
      left ++ replaceRow text keepInserts inside ++ right := by
  obtain ⟨h1, h2⟩ := start_lt_iff_edge hl (hi.append hr) rfl
  obtain ⟨h3, h4⟩ := stop_le_iff_edge (hl.append hi) hr rfl
  rw [List.nil_append] at h1 h2 h3 h4
  have hlast : partitionPoint (·.stop ≤ utf8Length (a ++ m)) (left ++ (inside ++ right)) =
      (left ++ inside).length := by
    rw [← List.append_assoc, partitionPoint_append h3 h4]
  have htake : (left ++ (inside ++ right)).take (left ++ inside).length =
      left ++ inside := by rw [← List.append_assoc, List.take_left]
  have hdrop : (left ++ (inside ++ right)).drop (left ++ inside).length = right := by
    rw [← List.append_assoc, List.drop_left]
  rw [replaceBetween, partitionPoint_append h1 h2, hlast, htake, hdrop, List.take_left,
    List.drop_left]

theorem replace_of_not_blocked (ht : buffer.Tiled)
    (hs : buffer.source = a ++ (m ++ c)) (h1 : start = utf8Length a)
    (h2 : stop = utf8Length (a ++ m)) (hb1 : ¬ Blocked start buffer.chunks)
    (hb2 : ¬ Blocked stop buffer.chunks) :
    ∃ left rest inside right,
      (replace start stop text keepInserts).run buffer =
        .ok () { buffer with
          chunks := left ++ replaceRow text keepInserts inside ++ right } ∧
      Cuts start buffer.chunks left rest ∧ Cuts stop rest inside right ∧
      Tiles [] a left ∧ Tiles a m inside ∧ Tiles (a ++ m) c right := by
  have ht' : Tiles [] (a ++ (m ++ c)) buffer.chunks := hs ▸ ht
  obtain ⟨left, rest, inside, right, hrun, hc1, hc2, hl, hi, hr⟩ :=
    cutRange_of_not_blocked ht' hs h1 h2 hb1 hb2
  refine ⟨left, rest, inside, right, ?_, hc1, hc2, hl, hi, hr⟩
  simp only [replace, EStateM.run_bind, hrun, EStateM.run_modify]
  rw [h1, h2, replaceBetween_eq hl hi hr]

theorem replace_of_blocked (ht : buffer.Tiled)
    (hs : buffer.source = a ++ (m ++ c)) (h1 : start = utf8Length a)
    (h2 : stop = utf8Length (a ++ m))
    (hb : Blocked start buffer.chunks ∨ Blocked stop buffer.chunks) :
    Refuses (replace start stop text keepInserts) buffer := by
  have ht' : Tiles [] (a ++ (m ++ c)) buffer.chunks := hs ▸ ht
  exact (cutRange_of_blocked ht' h1 h2 hb).bind _

end Editing

end ParseView.Edit
