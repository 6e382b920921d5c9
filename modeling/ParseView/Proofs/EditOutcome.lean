import ParseView.Proofs.EditStep

/-!
# Edits are done whole or refused

`Operation.Refused` says in terms of offsets and of the row when an operation is
refused, and `Accepted` says everything that one which is not refused can do. That
the two between them describe every operation is `Buffer.apply_cases`; all later facts
about edits start there.

The steps of an edit work in place and take nothing back. `Settles` is therefore a
statement about the buffer that is left as much as about the answer: where the edit is
refused it is the buffer the edit began with, row and inserted texts included.
-/

namespace ParseView.Edit

open Text (utf8Length utf8Length_append)

/-! ## Kinds of operations -/

namespace Operation

/-- The offset of an insert and what it does to the text to the left of it. -/
def leftInsert? : Operation → Option (Nat × (List Char → List Char))
  | .appendLeft offset text => some (offset, (· ++ text))
  | .prependLeft offset text => some (offset, (text ++ ·))
  | _ => none

/-- The offset of an insert and what it does to the text to the right of it. -/
def rightInsert? : Operation → Option (Nat × (List Char → List Char))
  | .appendRight offset text => some (offset, (· ++ text))
  | .prependRight offset text => some (offset, (text ++ ·))
  | _ => none

/-- The range of an edit, the text that takes its place, and whether inserts are kept. -/
def range? : Operation → Option (Nat × Nat × List Char × Bool)
  | .overwrite start stop text => some (start, stop, text, false)
  | .update start stop text => some (start, stop, text, true)
  | .remove start stop => some (start, stop, [], false)
  | _ => none

end Operation

/-- A range whose ends are out of order or not both valid. -/
def Buffer.InvalidRange (buffer : Buffer) (start stop : Nat) : Prop :=
  stop < start ∨ buffer.Invalid start ∨ buffer.Invalid stop

/-- A range with a replaced chunk around one of its ends. -/
def Buffer.BlockedRange (buffer : Buffer) (start stop : Nat) : Prop :=
  Blocked start buffer.chunks ∨ Blocked stop buffer.chunks

/-- When a buffer refuses an operation. -/
def Operation.Refused (buffer : Buffer) : Operation → Prop
  | .append _ | .prepend _ => False
  | .appendLeft offset _ | .prependLeft offset _ | .appendRight offset _
  | .prependRight offset _ => buffer.Invalid offset ∨ Blocked offset buffer.chunks
  | .overwrite start stop _ | .update start stop _ =>
      buffer.InvalidRange start stop ∨ start = stop ∨ buffer.BlockedRange start stop
  | .remove start stop =>
      buffer.InvalidRange start stop ∨ start ≠ stop ∧ buffer.BlockedRange start stop

/-- Everything an operation can do that is not refused. -/
inductive Accepted (buffer : Buffer) : Operation → Buffer → Prop
  | append (text : List Char) :
      Accepted buffer (.append text) { buffer with outro := buffer.outro ++ text }
  | prepend (text : List Char) :
      Accepted buffer (.prepend text) { buffer with intro := text ++ buffer.intro }
  | left {operation : Operation} {offset : Nat} {f : List Char → List Char}
      {a b : List Char} {left right : List Chunk} :
      operation.leftInsert? = some (offset, f) →
      buffer.source = a ++ b → offset = utf8Length a →
      Cuts offset buffer.chunks left right → Tiles [] a left → Tiles a b right →
      Accepted buffer operation (buffer.insertedLeft f left right)
  | right {operation : Operation} {offset : Nat} {f : List Char → List Char}
      {a b : List Char} {left right : List Chunk} :
      operation.rightInsert? = some (offset, f) →
      buffer.source = a ++ b → offset = utf8Length a →
      Cuts offset buffer.chunks left right → Tiles [] a left → Tiles a b right →
      Accepted buffer operation (buffer.insertedRight f left right)
  | nothing (offset : Nat) : Accepted buffer (.remove offset offset) buffer
  | range {operation : Operation} {start stop : Nat} {text : List Char}
      {keepInserts : Bool} {a m c : List Char} {left rest inside right : List Chunk} :
      operation.range? = some (start, stop, text, keepInserts) → start < stop →
      buffer.source = a ++ (m ++ c) →
      start = utf8Length a → stop = utf8Length (a ++ m) →
      Cuts start buffer.chunks left rest → Cuts stop rest inside right →
      Tiles [] a left → Tiles a m inside → Tiles (a ++ m) c right →
      Accepted buffer operation
        { buffer with chunks := left ++ replaceRow text keepInserts inside ++ right }

/-! ## From edits to operations -/

/-- An edit is refused, with the buffer as it was, exactly where `refused` holds. Where
it does not, the buffer it leaves satisfies `accepted`. -/
def Settles (edit : Editing Unit) (buffer : Buffer) (refused : Prop)
    (accepted : Buffer → Prop) : Prop :=
  (refused ∧ Refuses edit buffer) ∨
    (¬ refused ∧ ∃ next, edit.run buffer = .ok () next ∧ accepted next)

theorem Settles.mono {edit : Editing Unit} {buffer : Buffer} {refused : Prop}
    {accepted accepted' : Buffer → Prop} (h : Settles edit buffer refused accepted)
    (hmono : ∀ next, accepted next → accepted' next) :
    Settles edit buffer refused accepted' :=
  h.imp id fun ⟨hnot, next, hrun, hacc⟩ => ⟨hnot, next, hrun, hmono next hacc⟩

namespace Editing

variable {buffer : Buffer} {start stop : Nat} {text : List Char} {keepInserts : Bool}

theorem insertLeft_settles (ht : buffer.Tiled) (offset : Nat)
    (f : List Char → List Char) :
    Settles (insertLeft offset f) buffer
      (buffer.Invalid offset ∨ Blocked offset buffer.chunks) fun next =>
      ∀ operation : Operation, operation.leftInsert? = some (offset, f) →
        Accepted buffer operation next := by
  by_cases h : buffer.Invalid offset ∨ Blocked offset buffer.chunks
  · exact .inl ⟨h, checkedCut_of_refused ht h _⟩
  · obtain ⟨a, b, hs, ho⟩ := Buffer.not_invalid_iff.mp fun hv => h (.inl hv)
    obtain ⟨left, right, hrun, hcuts, hl, hr⟩ :=
      insertLeft_of_not_blocked (f := f) ht hs ho fun hb => h (.inr hb)
    exact .inr ⟨h, _, hrun, fun _ hop => .left hop hs ho hcuts hl hr⟩

theorem insertRight_settles (ht : buffer.Tiled) (offset : Nat)
    (f : List Char → List Char) :
    Settles (insertRight offset f) buffer
      (buffer.Invalid offset ∨ Blocked offset buffer.chunks) fun next =>
      ∀ operation : Operation, operation.rightInsert? = some (offset, f) →
        Accepted buffer operation next := by
  by_cases h : buffer.Invalid offset ∨ Blocked offset buffer.chunks
  · exact .inl ⟨h, checkedCut_of_refused ht h _⟩
  · obtain ⟨a, b, hs, ho⟩ := Buffer.not_invalid_iff.mp fun hv => h (.inl hv)
    obtain ⟨left, right, hrun, hcuts, hl, hr⟩ :=
      insertRight_of_not_blocked (f := f) ht hs ho fun hb => h (.inr hb)
    exact .inr ⟨h, _, hrun, fun _ hop => .right hop hs ho hcuts hl hr⟩

/-- Two valid offsets in order cut the source in three. -/
theorem exists_range (h : ¬ buffer.InvalidRange start stop) :
    ∃ a m c, buffer.source = a ++ (m ++ c) ∧ start = utf8Length a ∧
      stop = utf8Length (a ++ m) := by
  obtain ⟨hle, h⟩ := not_or.mp h
  obtain ⟨h1, h2⟩ := not_or.mp h
  obtain ⟨a, b, hs1, rfl⟩ := Buffer.not_invalid_iff.mp h1
  obtain ⟨d, c, hs2, rfl⟩ := Buffer.not_invalid_iff.mp h2
  rcases List.append_eq_append_iff.mp (hs1.symm.trans hs2) with
    ⟨m, rfl, rfl⟩ | ⟨m, rfl, rfl⟩
  · exact ⟨a, m, c, hs1, rfl, rfl⟩
  · obtain rfl : m = [] := by
      rw [utf8Length_append] at hle
      exact Text.utf8Length_eq_zero.mp (by omega)
    exact ⟨d, [], b, by simpa using hs1, by simp, by simp⟩

theorem checkRange_of_not_invalid (h : ¬ buffer.InvalidRange start stop) :
    (checkRange start stop).run buffer = .ok () buffer := by
  obtain ⟨hle, h⟩ := not_or.mp h
  obtain ⟨h1, h2⟩ := not_or.mp h
  exact checkRange_of_valid (Nat.not_lt.mp hle) h1 h2

/-- A valid range is refused by a replaced chunk around one of its ends and by nothing
else. -/
theorem replace_settles (ht : buffer.Tiled) (h : ¬ buffer.InvalidRange start stop) :
    Settles (replace start stop text keepInserts) buffer
      (buffer.BlockedRange start stop) fun next =>
      ∀ operation : Operation,
        operation.range? = some (start, stop, text, keepInserts) → start < stop →
        Accepted buffer operation next := by
  obtain ⟨a, m, c, hs, h1, h2⟩ := exists_range h
  by_cases hb : buffer.BlockedRange start stop
  · exact .inl ⟨hb, replace_of_blocked ht hs h1 h2 hb⟩
  · obtain ⟨hb1, hb2⟩ := not_or.mp hb
    obtain ⟨left, rest, inside, right, hrun, hc1, hc2, hl, hi, hr⟩ :=
      replace_of_not_blocked ht hs h1 h2 hb1 hb2
    exact .inr ⟨hb, _, hrun, fun operation hop hlt =>
      .range hop hlt hs h1 h2 hc1 hc2 hl hi hr⟩

theorem overwrite_settles (ht : buffer.Tiled) (start stop : Nat) (text : List Char)
    (keepInserts : Bool) :
    Settles (overwrite start stop text keepInserts) buffer
      (buffer.InvalidRange start stop ∨ start = stop ∨ buffer.BlockedRange start stop)
      fun next => ∀ operation : Operation,
        operation.range? = some (start, stop, text, keepInserts) →
        Accepted buffer operation next := by
  by_cases h : buffer.InvalidRange start stop
  · exact .inl ⟨.inl h, (checkRange_of_invalid h).bind _⟩
  · have hcheck := checkRange_of_not_invalid h
    by_cases heq : start = stop
    · refine .inl ⟨.inr (.inl heq), .zeroLength start stop, by simp, ?_⟩
      simp only [overwrite, EStateM.run_bind, hcheck, if_pos heq]
      rfl
    · have hrun : (overwrite start stop text keepInserts).run buffer =
          (replace start stop text keepInserts).run buffer := by
        simp only [overwrite, EStateM.run_bind, hcheck, if_neg heq]
      have hlt : start < stop := by
        have := (not_or.mp h).1
        omega
      rw [Settles, Refuses, hrun]
      rcases replace_settles ht h with ⟨hb, hrefused⟩ | ⟨hb, next, hnext, hacc⟩
      · exact .inl ⟨.inr (.inr hb), hrefused⟩
      · exact .inr ⟨by simp [h, heq, hb], next, hnext, fun op hop => hacc op hop hlt⟩

theorem remove_settles (ht : buffer.Tiled) (start stop : Nat) :
    Settles (remove start stop) buffer
      (buffer.InvalidRange start stop ∨ start ≠ stop ∧ buffer.BlockedRange start stop)
      (Accepted buffer (.remove start stop)) := by
  by_cases h : buffer.InvalidRange start stop
  · exact .inl ⟨.inl h, (checkRange_of_invalid h).bind _⟩
  · have hcheck := checkRange_of_not_invalid h
    by_cases heq : start = stop
    · subst heq
      refine .inr ⟨by simp [h], buffer, ?_, .nothing start⟩
      simp only [remove, EStateM.run_bind, hcheck]
      simp
    · have hrun : (remove start stop).run buffer =
          (replace start stop [] false).run buffer := by
        simp only [remove, EStateM.run_bind, hcheck, if_pos (show start ≠ stop from heq)]
      have hlt : start < stop := by
        have := (not_or.mp h).1
        omega
      rw [Settles, Refuses, hrun]
      rcases replace_settles ht h with ⟨hb, hrefused⟩ | ⟨hb, next, hnext, hacc⟩
      · exact .inl ⟨.inr ⟨heq, hb⟩, hrefused⟩
      · exact .inr ⟨by simp [h, hb], next, hnext, hacc _ rfl hlt⟩

/-- Every operation is refused with the buffer as it was, or does what it can. -/
theorem operation_settles (ht : buffer.Tiled) (operation : Operation) :
    Settles operation.editing buffer (operation.Refused buffer)
      (Accepted buffer operation) := by
  cases operation with
  | append text => exact .inr ⟨id, _, rfl, .append text⟩
  | prepend text => exact .inr ⟨id, _, rfl, .prepend text⟩
  | appendLeft offset text =>
      exact (insertLeft_settles ht offset (· ++ text)).mono fun _ hacc => hacc _ rfl
  | prependLeft offset text =>
      exact (insertLeft_settles ht offset (text ++ ·)).mono fun _ hacc => hacc _ rfl
  | appendRight offset text =>
      exact (insertRight_settles ht offset (· ++ text)).mono fun _ hacc => hacc _ rfl
  | prependRight offset text =>
      exact (insertRight_settles ht offset (text ++ ·)).mono fun _ hacc => hacc _ rfl
  | overwrite start stop text =>
      exact (overwrite_settles ht start stop text false).mono fun _ hacc => hacc _ rfl
  | update start stop text =>
      exact (overwrite_settles ht start stop text true).mono fun _ hacc => hacc _ rfl
  | remove start stop => exact remove_settles ht start stop

end Editing

/-- The answer to an operation and the buffer that it leaves. -/
theorem Buffer.apply_cases {buffer : Buffer} (ht : buffer.Tiled)
    (operation : Operation) :
    (operation.Refused buffer ∧
        (∃ refusal, (∀ offset, refusal ≠ .torn offset) ∧
          buffer.apply operation = .error refusal) ∧
        buffer.perform operation = buffer) ∨
      (¬ operation.Refused buffer ∧ ∃ next, buffer.apply operation = .ok next ∧
        buffer.perform operation = next ∧ Accepted buffer operation next) := by
  rcases Editing.operation_settles ht operation with
    ⟨h, refusal, hne, hrun⟩ | ⟨h, next, hrun, haccepted⟩
  · exact .inl ⟨h, ⟨refusal, hne, by rw [apply, hrun]⟩, by rw [perform, hrun]⟩
  · exact .inr ⟨h, next, by rw [apply, hrun], by rw [perform, hrun], haccepted⟩

end ParseView.Edit
