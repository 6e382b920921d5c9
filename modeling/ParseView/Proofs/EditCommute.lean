import ParseView.Proofs.EditLocality

/-!
# Edits of disjoint ranges commute

Two edits of ranges one behind the other leave the same buffer in either order, and each
is answered as if the other had not been made. The ranges may meet in an offset and lie
in one chunk, and an edit that is refused is part of the statement: it must be refused
for the same chunk before and behind the other one.

With an edit of a range written as a change of every chunk by itself, the buffer is the
lemma `editRange_comm` and the answers are `obstacle?_editRange`. What is left are the
edits that never come as far as the row. Their answer is read off the source, which no
edit changes (`Editing.Inert`).
-/

namespace ParseView.Edit

open Text (utf8Length)

/-! ## Edits that change nothing -/

namespace Editing

variable {source : List Char} {buffer other : Buffer} {start stop : Nat}

/-- Over a given source an edit changes nothing, and it is always answered the same. -/
def Inert (edit : Editing Unit) (source : List Char) : Prop :=
  (∃ refusal, ∀ buffer : Buffer, buffer.source = source →
      edit.run buffer = .error refusal buffer) ∨
    ∀ buffer : Buffer, buffer.source = source → edit.run buffer = .ok () buffer

theorem Inert.bind {edit : Editing Unit} {rest : Unit → Editing Unit}
    (h : Inert edit source) (hrest : Inert (rest ()) source) :
    Inert (edit >>= rest) source := by
  rcases h with ⟨refusal, h⟩ | h
  · refine .inl ⟨refusal, fun buffer hs => ?_⟩
    rw [EStateM.run_bind, h buffer hs]
  · have hrun : ∀ buffer : Buffer, buffer.source = source →
        (edit >>= rest).run buffer = (rest ()).run buffer := fun buffer hs => by
      rw [EStateM.run_bind, h buffer hs]
    rcases hrest with ⟨refusal, hrest⟩ | hrest
    · exact .inl ⟨refusal, fun buffer hs => (hrun buffer hs).trans (hrest buffer hs)⟩
    · exact .inr fun buffer hs => (hrun buffer hs).trans (hrest buffer hs)

theorem inert_throw (refusal : Refusal) : Inert (throw refusal) source :=
  .inl ⟨refusal, fun _ _ => rfl⟩

/-- The check of an offset looks at nothing but the source. -/
theorem inert_checkOffset (offset : Nat) : Inert (checkOffset offset) source := by
  by_cases hlength : utf8Length source < offset
  · refine .inl ⟨.outOfBounds offset (utf8Length source), fun buffer hs => ?_⟩
    rw [checkOffset_run, hs, if_pos hlength]
  · by_cases hboundary : Text.isBoundary offset source = true
    · refine .inr fun buffer hs => ?_
      rw [checkOffset_run, hs, if_neg hlength, if_pos hboundary]
    · refine .inl ⟨.notBoundary offset, fun buffer hs => ?_⟩
      rw [checkOffset_run, hs, if_neg hlength, if_neg hboundary]

theorem inert_checkRange (start stop : Nat) : Inert (checkRange start stop) source := by
  rw [checkRange]
  split
  · exact inert_throw _
  · exact (inert_checkOffset start).bind (inert_checkOffset stop)

/-- An empty range is refused or passed over once it was checked. -/
theorem inert_of_empty {operation : Operation} {content : List Char} {keep : Bool}
    (hop : operation.range? = some (start, start, content, keep)) :
    Inert operation.editing source := by
  have hcheck : Inert (checkRange start start) source := inert_checkRange start start
  cases operation with
  | overwrite | update =>
      cases hop
      simp only [Operation.editing, overwrite, if_pos]
      exact hcheck.bind (inert_throw _)
  | remove =>
      cases hop
      simp only [Operation.editing, remove, ne_eq, not_true_eq_false, if_false]
      exact hcheck.bind (.inr fun _ _ => rfl)
  | _ => cases hop

end Editing

/-- What is told of an edit: that it was done, or why it is refused. -/
def Buffer.answer (buffer : Buffer) (operation : Operation) : Except Refusal Unit :=
  (buffer.apply operation).map fun _ => ()

section Inert

variable {source : List Char} {buffer other : Buffer} {operation : Operation}
  {start stop : Nat} {content : List Char} {keep : Bool}

/-- An edit of a range changes nothing, or its range is valid and not empty. -/
theorem Operation.inert_or_proper (hop : operation.range? = some (start, stop, content, keep))
    (source : List Char) :
    Editing.Inert operation.editing source ∨
      start < stop ∧ ∀ buffer : Buffer, buffer.source = source →
        ¬ buffer.InvalidRange start stop := by
  by_cases heq : start = stop
  · subst heq
    exact .inl (Editing.inert_of_empty hop)
  · rw [Operation.editing_of_range hop heq]
    have hcheck : Editing.Inert (Editing.checkRange start stop) source :=
      Editing.inert_checkRange start stop
    rcases hcheck with ⟨refusal, h⟩ | h
    · refine .inl (.inl ⟨refusal, fun buffer hs => ?_⟩)
      rw [EStateM.run_bind, h buffer hs]
    · have hvalid : ∀ buffer : Buffer, buffer.source = source →
          ¬ buffer.InvalidRange start stop := fun buffer hs hinvalid => by
        obtain ⟨refusal, -, hrefuses⟩ := Editing.checkRange_of_invalid hinvalid
        rw [h buffer hs] at hrefuses
        exact nomatch hrefuses
      have hle : ¬ stop < start := fun hlt => hvalid (Buffer.ofSource source) rfl (.inl hlt)
      exact .inr ⟨by omega, hvalid⟩

theorem Editing.Inert.answer_eq (h : Editing.Inert operation.editing source)
    (hs : buffer.source = source) (hs' : other.source = source) :
    buffer.answer operation = other.answer operation := by
  rw [Buffer.answer, Buffer.answer, Buffer.apply, Buffer.apply]
  rcases h with ⟨told, h⟩ | h
  · rw [h buffer hs, h other hs']
  · rw [h buffer hs, h other hs']
    rfl

theorem Editing.Inert.perform_eq (h : Editing.Inert operation.editing source)
    (hs : buffer.source = source) : buffer.perform operation = buffer := by
  rcases h with ⟨told, h⟩ | h <;> rw [Buffer.perform, h buffer hs]

end Inert

/-! ## Two edits -/

section Two

variable {buffer : Buffer} {operation first second : Operation}
  {start stop start₁ stop₁ start₂ stop₂ : Nat} {content text₁ text₂ : List Char}
  {keep keep₁ keep₂ : Bool}

/-- The buffer that an edit of a range leaves. -/
theorem Buffer.perform_range (ht : buffer.Tiled) (hv : ¬ buffer.InvalidRange start stop)
    (hop : operation.range? = some (start, stop, content, keep)) (hlt : start < stop) :
    buffer.perform operation =
      if rangeObstacle? start stop buffer.chunks = none then
        { buffer with
          chunks := editRange buffer.source start stop content keep buffer.chunks }
      else buffer := by
  have hans := apply_range ht hv hop hlt
  rcases apply_cases ht operation with ⟨-, ⟨refusal, -, herr⟩, hsame⟩ | ⟨-, next, hok, hnext, -⟩
  · rw [herr] at hans
    rw [hsame]
    cases hobs : rangeObstacle? start stop buffer.chunks with
    | none => rw [hobs] at hans; exact nomatch hans
    | some refusal => rfl
  · rw [hok] at hans
    rw [hnext]
    cases hobs : rangeObstacle? start stop buffer.chunks with
    | none =>
        rw [hobs] at hans
        rw [if_pos rfl]
        exact Except.ok.inj hans
    | some refusal => rw [hobs] at hans; exact nomatch hans

/-- An edit of another range leaves all obstacles as they are. -/
theorem rangeObstacle?_perform (ht : buffer.Tiled) (hv : ¬ buffer.InvalidRange start₂ stop₂)
    (hop : second.range? = some (start₂, stop₂, text₂, keep₂)) (hlt : start₂ < stop₂)
    (hle : start₁ ≤ stop₁) (hdisjoint : stop₁ ≤ start₂ ∨ stop₂ ≤ start₁) :
    rangeObstacle? start₁ stop₁ (buffer.perform second).chunks =
      rangeObstacle? start₁ stop₁ buffer.chunks := by
  rw [Buffer.perform_range ht hv hop hlt]
  split
  · next hfree =>
      obtain ⟨h1, h2⟩ := not_or.mp (rangeObstacle?_eq_none_iff.mp hfree)
      have hstart : start₁ ≤ start₂ ∨ stop₂ ≤ start₁ := by omega
      have hstop : stop₁ ≤ start₂ ∨ stop₂ ≤ stop₁ := by omega
      rw [rangeObstacle?, rangeObstacle?, obstacle?_editRange h1 h2 hstart,
        obstacle?_editRange h1 h2 hstop]
  · rfl

/-- An edit of a range is answered as if another range had not been edited before. -/
theorem Buffer.answer_perform (ht : buffer.Tiled)
    (h₁ : first.range? = some (start₁, stop₁, text₁, keep₁))
    (h₂ : second.range? = some (start₂, stop₂, text₂, keep₂)) (hle : start₁ ≤ stop₁)
    (hdisjoint : stop₁ ≤ start₂ ∨ stop₂ ≤ start₁) :
    (buffer.perform second).answer first = buffer.answer first := by
  have hsource := source_perform ht second
  rcases Operation.inert_or_proper h₁ buffer.source with hinert | ⟨hlt, hvalid⟩
  · exact hinert.answer_eq hsource rfl
  · rcases Operation.inert_or_proper h₂ buffer.source with hinert | ⟨hlt', hvalid'⟩
    · rw [hinert.perform_eq rfl]
    · rw [answer, answer, apply_range (ht.perform second) (hvalid _ hsource) h₁ hlt,
        apply_range ht (hvalid _ rfl) h₁ hlt,
        rangeObstacle?_perform ht (hvalid' _ rfl) h₂ hlt' hle hdisjoint]
      cases rangeObstacle? start₁ stop₁ buffer.chunks <;> rfl

theorem Buffer.perform_perform_comm (ht : buffer.Tiled)
    (h₁ : first.range? = some (start₁, stop₁, text₁, keep₁))
    (h₂ : second.range? = some (start₂, stop₂, text₂, keep₂)) (hle₁ : start₁ ≤ stop₁)
    (hle : stop₁ ≤ start₂) (hle₂ : start₂ ≤ stop₂) :
    (buffer.perform first).perform second = (buffer.perform second).perform first := by
  have hsource₁ := source_perform ht first
  have hsource₂ := source_perform ht second
  rcases Operation.inert_or_proper h₁ buffer.source with hinert | ⟨hlt₁, hvalid₁⟩
  · rw [hinert.perform_eq rfl, hinert.perform_eq hsource₂]
  rcases Operation.inert_or_proper h₂ buffer.source with hinert | ⟨hlt₂, hvalid₂⟩
  · rw [hinert.perform_eq rfl, hinert.perform_eq hsource₁]
  have hobs₁ := rangeObstacle?_perform ht (hvalid₂ _ rfl) h₂ hlt₂ hle₁ (.inl hle)
  have hobs₂ := rangeObstacle?_perform ht (hvalid₁ _ rfl) h₁ hlt₁ hle₂ (.inr hle)
  rw [perform_range (ht.perform first) (hvalid₂ _ hsource₁) h₂ hlt₂, hobs₂,
    perform_range (ht.perform second) (hvalid₁ _ hsource₂) h₁ hlt₁, hobs₁,
    perform_range ht (hvalid₁ _ rfl) h₁ hlt₁, perform_range ht (hvalid₂ _ rfl) h₂ hlt₂]
  by_cases hfree₁ : rangeObstacle? start₁ stop₁ buffer.chunks = none
  · by_cases hfree₂ : rangeObstacle? start₂ stop₂ buffer.chunks = none
    · simp only [if_pos hfree₁, if_pos hfree₂, editRange_comm hle hle₁ hle₂]
    · simp only [if_pos hfree₁, if_neg hfree₂]
  · by_cases hfree₂ : rangeObstacle? start₂ stop₂ buffer.chunks = none
    · simp only [if_neg hfree₁, if_pos hfree₂]
    · simp only [if_neg hfree₁, if_neg hfree₂]

end Two

/-- Two edits of ranges one behind the other can be done in either order. Each is
answered as if the other had not been made, and the buffer that both leave is the same,
with its cuts, texts, inserts and flags, also where one or both of them are refused. -/
theorem range_edits_commute (source : List Char) (history : List Operation)
    {first second : Operation} {start₁ stop₁ start₂ stop₂ : Nat} {text₁ text₂ : List Char}
    {keep₁ keep₂ : Bool} (h₁ : first.range? = some (start₁, stop₁, text₁, keep₁))
    (h₂ : second.range? = some (start₂, stop₂, text₂, keep₂)) (hle₁ : start₁ ≤ stop₁)
    (hle : stop₁ ≤ start₂) (hle₂ : start₂ ≤ stop₂) :
    let buffer := (Buffer.ofSource source).run history
    (buffer.perform second).answer first = buffer.answer first ∧
    (buffer.perform first).answer second = buffer.answer second ∧
    (buffer.perform first).perform second = (buffer.perform second).perform first := by
  intro buffer
  have ht : buffer.Tiled := (Buffer.ofSource_tiled source).run history
  exact ⟨Buffer.answer_perform ht h₁ h₂ hle₁ (.inl hle),
    Buffer.answer_perform ht h₂ h₁ hle₂ (.inr hle),
    Buffer.perform_perform_comm ht h₁ h₂ hle₁ hle hle₂⟩

/-- Two ranges that meet inside a removed chunk with a text behind it. -/
theorem range_edits_commute_inside_removed :
    let buffer := (Buffer.ofSource ['a', 'é', 'b', 'c']).run
      [.remove 0 5, .appendLeft 5 ['l'], .appendRight 0 ['r']]
    (buffer.perform (.update 3 4 ['y'])).answer (.overwrite 1 3 ['x']) =
      buffer.answer (.overwrite 1 3 ['x']) ∧
    (buffer.perform (.overwrite 1 3 ['x'])).perform (.update 3 4 ['y']) =
      (buffer.perform (.update 3 4 ['y'])).perform (.overwrite 1 3 ['x']) ∧
    ((buffer.perform (.overwrite 1 3 ['x'])).perform (.update 3 4 ['y'])).render =
      ['r', 'x', 'y'] := by
  intro buffer
  have h₁ : (Operation.overwrite 1 3 ['x']).range? = some (1, 3, ['x'], false) := rfl
  have h₂ : (Operation.update 3 4 ['y']).range? = some (3, 4, ['y'], true) := rfl
  obtain ⟨hfirst, -, hcomm⟩ := range_edits_commute ['a', 'é', 'b', 'c']
    [.remove 0 5, .appendLeft 5 ['l'], .appendRight 0 ['r']] h₁ h₂
    (by decide) (by decide) (by decide)
  exact ⟨hfirst, hcomm, by decide +kernel⟩

end ParseView.Edit
