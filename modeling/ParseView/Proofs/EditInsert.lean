import ParseView.Proofs.EditHistory

/-!
# What an insert keeps

An insert puts its text somewhere into the rendered text and means to leave the rest
alone. It does so unless it has to cut a chunk that was edited and has text inserted
behind it: the second half of such a chunk starts afresh, and the text that should
have gone to it is gone. `insert_keeps_iff` says that this is the only way to lose
text, and `insert_loses_text` that it happens.
-/

namespace ParseView.Edit

open Text (utf8Length utf8Length_append)

/-! ## Lengths -/

theorem Chunk.length_eq (chunk : Chunk) : chunk.length = utf8Length chunk.render := by
  simp only [Chunk.length, Chunk.render, utf8Length_append]

theorem foldl_length_eq (row : List Chunk) (total : Nat) :
    row.foldl (fun total chunk => total + chunk.length) total =
      total + utf8Length (row.flatMap Chunk.render) := by
  induction row generalizing total with
  | nil => simp [utf8Length]
  | cons chunk rest ih =>
      rw [List.foldl_cons, ih, List.flatMap_cons, utf8Length_append, Chunk.length_eq,
        Nat.add_assoc]

/-- The length of a buffer counts the bytes of its text. -/
theorem Buffer.length_eq (buffer : Buffer) : buffer.length = utf8Length buffer.render := by
  rw [Buffer.length, Buffer.render, utf8Length_append, utf8Length_append, foldl_length_eq,
    Nat.zero_add]

/-! ## What a cut loses -/

/-- The text inserted behind an edited chunk that lies around an offset. -/
def Buffer.behindEdited (buffer : Buffer) (offset : Nat) : List Char :=
  (buffer.chunks.filter fun chunk => chunk.surrounds offset && chunk.isEdited).flatMap
    Chunk.outro

theorem filter_surrounds_eq_nil {row : List Chunk} {offset : Nat}
    (h : ∀ chunk ∈ row, chunk.surrounds offset = false) :
    (row.filter fun chunk => chunk.surrounds offset && chunk.isEdited) = [] := by
  refine List.filter_eq_nil_iff.mpr fun chunk hm => ?_
  simp [h chunk hm]

/-- A cut at an edge that was there loses nothing, and a cut inside a chunk loses the
text behind it if the chunk was edited. Apart from that text, which stood at the
offset, the two parts of the row render what the row rendered. -/
inductive CutText (buffer : Buffer) (offset : Nat) (left right : List Chunk) : Prop
  | edge : buffer.behindEdited offset = [] → buffer.chunks = left ++ right →
      CutText buffer offset left right
  | inside {init rest : List Chunk} {first second : Chunk} :
      left = init ++ [first] → right = second :: rest →
      first.outro = [] → second.intro = [] →
      buffer.chunks.flatMap Chunk.render =
        left.flatMap Chunk.render ++ buffer.behindEdited offset
          ++ right.flatMap Chunk.render →
      CutText buffer offset left right

theorem Cuts.text {buffer : Buffer} {a b : List Char} {left right : List Chunk}
    (h : Cuts (utf8Length a) buffer.chunks left right) (hl : Tiles [] a left)
    (hr : Tiles a b right) : CutText buffer (utf8Length a) left right := by
  have hnot : ∀ chunk ∈ left ++ right, chunk.surrounds (utf8Length a) = false :=
    fun chunk hm => by simpa using not_surrounds_of_edge hl (by simpa using hr) hm
  generalize hrow : buffer.chunks = row at h
  cases h with
  | edge =>
      refine .edge ?_ hrow
      rw [Buffer.behindEdited, hrow, filter_surrounds_eq_nil hnot]
      rfl
  | @inside init rest chunk p q hs hrep hcontent =>
      have h1 : ∀ other ∈ init, other.surrounds (utf8Length a) = false :=
        fun other hm => hnot other (by simp [hm])
      have h2 : ∀ other ∈ rest, other.surrounds (utf8Length a) = false :=
        fun other hm => hnot other (by simp [hm])
      have hlost : buffer.behindEdited (utf8Length a) =
          if chunk.isEdited then chunk.outro else [] := by
        rw [Buffer.behindEdited, hrow, List.filter_append, filter_surrounds_eq_nil h1,
          List.filter_cons, filter_surrounds_eq_nil h2, hs]
        cases chunk.isEdited <;> simp
      refine .inside rfl rfl rfl rfl ?_
      rw [hrow, hlost]
      cases he : chunk.isEdited with
      | true =>
          -- The content of an edited chunk that can be cut is empty.
          have hnil : chunk.content = [] := by simpa [Chunk.isReplaced, he] using hrep
          simp [Chunk.render, Chunk.firstHalf, Chunk.secondHalf, he, hnil]
      | false =>
          simp [Chunk.render, Chunk.firstHalf, Chunk.secondHalf, he, hcontent he]

/-! ## What an insert renders -/

/-- An insert puts `text` before or behind what was inserted at its place already. -/
def Inserts (f : List Char → List Char) (text : List Char) : Prop :=
  f = (· ++ text) ∨ f = (text ++ ·)

theorem Inserts.nil {f : List Char → List Char} {text : List Char} (h : Inserts f text) :
    f [] = text := by
  rcases h with rfl | rfl <;> simp

/-- In its surroundings an insert is text added at one place. -/
theorem Inserts.around {f : List Char → List Char} {text : List Char}
    (h : Inserts f text) (before held behind : List Char) :
    ∃ a b, before ++ held ++ behind = a ++ b ∧
      before ++ f held ++ behind = a ++ text ++ b := by
  rcases h with rfl | rfl
  · exact ⟨before ++ held, behind, rfl, by simp⟩
  · exact ⟨before, held ++ behind, by simp, by simp⟩

section Render

variable {buffer : Buffer} {f : List Char → List Char} {left right : List Chunk}

/-- The text that an insert changes, and what is rendered around it. -/
theorem Buffer.render_insertedLeft (h : buffer.chunks = left ++ right) :
    ∃ before held behind, buffer.render = before ++ held ++ behind ∧
      (buffer.insertedLeft f left right).render = before ++ f held ++ behind := by
  rcases List.eq_nil_or_concat left with rfl | ⟨init, chunk, rfl⟩
  · refine ⟨[], buffer.intro, right.flatMap Chunk.render ++ buffer.outro, ?_, ?_⟩
    · simp [Buffer.render, h]
    · simp [Buffer.render, Buffer.insertedLeft_nil]
  · rw [List.concat_eq_append] at h ⊢
    refine ⟨buffer.intro ++ init.flatMap Chunk.render ++ chunk.intro ++ chunk.content,
      chunk.outro, right.flatMap Chunk.render ++ buffer.outro, ?_, ?_⟩
    · simp [Buffer.render, h, Chunk.render]
    · simp [Buffer.render, Buffer.insertedLeft_concat, Chunk.render]

theorem Buffer.render_insertedRight (h : buffer.chunks = left ++ right) :
    ∃ before held behind, buffer.render = before ++ held ++ behind ∧
      (buffer.insertedRight f left right).render = before ++ f held ++ behind := by
  cases right with
  | nil =>
      refine ⟨buffer.intro ++ left.flatMap Chunk.render, buffer.outro, [], ?_, ?_⟩
      · simp [Buffer.render, h]
      · simp [Buffer.render, Buffer.insertedRight]
  | cons chunk rest =>
      refine ⟨buffer.intro ++ left.flatMap Chunk.render, chunk.intro,
        chunk.content ++ chunk.outro ++ rest.flatMap Chunk.render ++ buffer.outro, ?_, ?_⟩
      · simp [Buffer.render, h, Chunk.render]
      · simp [Buffer.render, Buffer.insertedRight, Chunk.render]

end Render

/-- An insert to the left of an offset adds its text at one place, and drops what the
cut loses there. -/
theorem CutText.insertedLeft {buffer : Buffer} {offset : Nat} {left right : List Chunk}
    {f : List Char → List Char} {text : List Char}
    (h : CutText buffer offset left right) (hf : Inserts f text) :
    ∃ before behind,
      buffer.render = before ++ buffer.behindEdited offset ++ behind ∧
      (buffer.insertedLeft f left right).render = before ++ text ++ behind := by
  cases h with
  | edge hnil hrow =>
      obtain ⟨x, held, y, hbefore, hafter⟩ := Buffer.render_insertedLeft (f := f) hrow
      obtain ⟨a, b, hsplit, hinsert⟩ := hf.around x held y
      refine ⟨a, b, ?_, by rw [hafter, hinsert]⟩
      rw [hnil, List.append_nil, hbefore, hsplit]
  | @inside init rest first second hl hr hfirst hsecond hrender =>
      subst hl hr
      refine ⟨buffer.intro ++ init.flatMap Chunk.render ++ first.render,
        second.render ++ rest.flatMap Chunk.render ++ buffer.outro, ?_, ?_⟩
      · simp [Buffer.render, hrender]
      · simp [Buffer.render, Buffer.insertedLeft_concat, Chunk.render, hfirst, hsecond,
          hf.nil]

theorem CutText.insertedRight {buffer : Buffer} {offset : Nat} {left right : List Chunk}
    {f : List Char → List Char} {text : List Char}
    (h : CutText buffer offset left right) (hf : Inserts f text) :
    ∃ before behind,
      buffer.render = before ++ buffer.behindEdited offset ++ behind ∧
      (buffer.insertedRight f left right).render = before ++ text ++ behind := by
  cases h with
  | edge hnil hrow =>
      obtain ⟨x, held, y, hbefore, hafter⟩ := Buffer.render_insertedRight (f := f) hrow
      obtain ⟨a, b, hsplit, hinsert⟩ := hf.around x held y
      refine ⟨a, b, ?_, by rw [hafter, hinsert]⟩
      rw [hnil, List.append_nil, hbefore, hsplit]
  | @inside init rest first second hl hr hfirst hsecond hrender =>
      subst hl hr
      refine ⟨buffer.intro ++ init.flatMap Chunk.render ++ first.render,
        second.render ++ rest.flatMap Chunk.render ++ buffer.outro, ?_, ?_⟩
      · simp [Buffer.render, hrender]
      · simp [Buffer.render, Buffer.insertedRight, Chunk.render, hfirst, hsecond,
          hf.nil]

/-- The offset and the text of an insert at an offset. -/
def Operation.insert? : Operation → Option (Nat × List Char)
  | .appendLeft offset text | .prependLeft offset text | .appendRight offset text
  | .prependRight offset text => some (offset, text)
  | _ => none

section Operation

variable {operation : Operation} {offset place : Nat} {text : List Char}
  {f : List Char → List Char}

theorem Operation.inserts_of_left (h : operation.leftInsert? = some (place, f))
    (hop : operation.insert? = some (offset, text)) : place = offset ∧ Inserts f text := by
  cases operation <;> simp_all [leftInsert?, insert?, Inserts]

theorem Operation.inserts_of_right (h : operation.rightInsert? = some (place, f))
    (hop : operation.insert? = some (offset, text)) : place = offset ∧ Inserts f text := by
  cases operation <;> simp_all [rightInsert?, insert?, Inserts]

theorem Operation.range?_of_insert (hop : operation.insert? = some (offset, text)) :
    operation.range? = none := by
  cases operation <;> simp_all [range?, insert?]

end Operation

theorem Accepted.insert {buffer next : Buffer} {operation : Operation} {offset : Nat}
    {text : List Char} (h : Accepted buffer operation next)
    (hop : operation.insert? = some (offset, text)) :
    ∃ before behind,
      buffer.render = before ++ buffer.behindEdited offset ++ behind ∧
      next.render = before ++ text ++ behind := by
  cases h with
  | append | prepend | nothing => exact nomatch hop
  | left hleft _ ho hcuts hl hr =>
      subst ho
      obtain ⟨rfl, hf⟩ := Operation.inserts_of_left hleft hop
      exact (hcuts.text hl hr).insertedLeft hf
  | right hright _ ho hcuts hl hr =>
      subst ho
      obtain ⟨rfl, hf⟩ := Operation.inserts_of_right hright hop
      exact (hcuts.text hl hr).insertedRight hf
  | range hrange =>
      rw [Operation.range?_of_insert hop] at hrange
      exact nomatch hrange

/-- An accepted insert after any history adds its text at one place and drops nothing
but the text behind an edited chunk around its offset. So it keeps all that was rendered,
and the length grows by that of its text, exactly if there is no such text. -/
theorem insert_keeps_iff (source : List Char) (history : List Operation)
    (operation : Operation) (offset : Nat) (text : List Char) (next : Buffer)
    (hop : operation.insert? = some (offset, text))
    (hans : ((Buffer.ofSource source).run history).apply operation = .ok next) :
    let buffer := (Buffer.ofSource source).run history
    (∃ before behind,
      buffer.render = before ++ buffer.behindEdited offset ++ behind ∧
      next.render = before ++ text ++ behind) ∧
    ((∃ before behind, buffer.render = before ++ behind ∧
        next.render = before ++ text ++ behind ∧
        next.length = buffer.length + utf8Length text) ↔
      ∀ chunk ∈ buffer.chunks, chunk.surrounds offset = true → chunk.isEdited = true →
        chunk.outro = []) := by
  intro buffer
  have ht : buffer.Tiled := (Buffer.ofSource_tiled source).run history
  have hinsert : ∃ before behind,
      buffer.render = before ++ buffer.behindEdited offset ++ behind ∧
      next.render = before ++ text ++ behind := by
    rcases Buffer.apply_cases ht operation with
      ⟨_, ⟨refusal, _, herr⟩, _⟩ | ⟨_, next', hans', _, hacc⟩
    · exact nomatch herr.symm.trans hans
    · obtain rfl : next' = next := Except.ok.inj (hans'.symm.trans hans)
      exact hacc.insert hop
  refine ⟨hinsert, ?_⟩
  have hlost : (∀ chunk ∈ buffer.chunks, chunk.surrounds offset = true →
      chunk.isEdited = true → chunk.outro = []) ↔ buffer.behindEdited offset = [] := by
    simp [Buffer.behindEdited, List.flatMap_eq_nil_iff]
  rw [hlost]
  obtain ⟨before, behind, hbefore, hafter⟩ := hinsert
  constructor
  · rintro ⟨a, b, hsplit, hnext, -⟩
    -- The same text cannot grow by `text` and lose something on the way.
    have hgrow := congrArg List.length (hafter.symm.trans hnext)
    have hsame := congrArg List.length (hbefore.symm.trans hsplit)
    simp only [List.length_append] at hgrow hsame
    exact List.length_eq_zero_iff.mp (by omega)
  · intro hnil
    rw [hnil, List.append_nil] at hbefore
    refine ⟨before, behind, hbefore, hafter, ?_⟩
    rw [Buffer.length_eq, Buffer.length_eq, hafter, hbefore]
    simp only [utf8Length_append]
    omega

/-- An insert inside a removed chunk with nothing behind it. -/
theorem insert_keeps_inside_removed :
    let buffer := (Buffer.ofSource ['a', 'b']).run [.remove 0 2, .appendRight 0 ['R']]
    let next := buffer.perform (.appendLeft 1 ['x'])
    (Operation.appendLeft 1 ['x']).insert? = some (1, ['x']) ∧
    buffer.apply (.appendLeft 1 ['x']) = .ok next ∧
    ∃ before behind, buffer.render = before ++ behind ∧
      next.render = before ++ ['x'] ++ behind ∧
      next.length = buffer.length + utf8Length ['x'] :=
  ⟨rfl, by with_unfolding_all rfl,
    (insert_keeps_iff ['a', 'b'] [.remove 0 2, .appendRight 0 ['R']]
      (.appendLeft 1 ['x']) 1 ['x'] _ rfl
      (by with_unfolding_all rfl)).2.mpr (by decide +kernel)⟩

/-- A chunk that was removed, text inserted behind it, and an insert in the middle. -/
theorem insert_loses_text :
    let buffer := (Buffer.ofSource ['a', 'b']).run [.remove 0 2, .appendLeft 2 ['L']]
    let next := buffer.perform (.appendLeft 1 ['!'])
    buffer.apply (.appendLeft 1 ['!']) = .ok next ∧
    buffer.render = ['L'] ∧ next.render = ['!'] ∧
    ¬ ∃ before behind, buffer.render = before ++ behind ∧
      next.render = before ++ ['!'] ++ behind := by
  refine ⟨by with_unfolding_all rfl, by decide +kernel, by decide +kernel, ?_⟩
  -- Both texts are one character long, which leaves no room for the inserted one.
  rintro ⟨before, behind, hbefore, hafter⟩
  have h1 : ['L'].length = (before ++ behind).length := by
    rw [← hbefore]
    decide +kernel
  have h2 : ['!'].length = (before ++ ['!'] ++ behind).length := by
    rw [← hafter]
    decide +kernel
  simp only [List.length_append, List.length_cons, List.length_nil] at h1 h2
  omega

end ParseView.Edit
