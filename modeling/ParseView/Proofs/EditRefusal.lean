import ParseView.Proofs.EditHistory
import ParseView.SourceMap.Export

/-!
# Refusals are exact, and nothing is left half done

What a caller can rely on after any history. Which operations are refused is decided
by the offsets and the row alone, and an operation that is refused leaves the whole
buffer as it was, so that neither its text nor any of its source maps change. The
steps of an edit take nothing back; that nothing has to be taken back is the content
of the theorem.
-/

namespace ParseView.Edit

/-- An operation is refused exactly where `Operation.Refused` says so, and then the
buffer is what it was. To remove an empty range is no refusal and no change. -/
theorem refused_iff_and_unchanged (source : List Char) (history : List Operation)
    (operation : Operation) :
    let buffer := (Buffer.ofSource source).run history
    buffer.source = source ∧
    ((∃ refusal, buffer.apply operation = .error refusal) ↔ operation.Refused buffer) ∧
    ((∃ refusal, buffer.apply operation = .error refusal) →
      buffer.perform operation = buffer ∧
      (buffer.perform operation).render = buffer.render ∧
      ∀ options, SourceMap.ofBuffer (buffer.perform operation) options =
        SourceMap.ofBuffer buffer options) ∧
    ∀ offset, ¬ buffer.Invalid offset →
      buffer.apply (.remove offset offset) = .ok buffer := by
  intro buffer
  have ht0 := Buffer.ofSource_tiled source
  have ht : buffer.Tiled := ht0.run history
  refine ⟨Buffer.source_run ht0 history, ?_, ?_, ?_⟩
  · rcases Buffer.apply_cases ht operation with
      ⟨h, ⟨refusal, _, hans⟩, _⟩ | ⟨h, next, hans, _, _⟩
    · exact iff_of_true ⟨refusal, hans⟩ h
    · refine iff_of_false ?_ h
      rintro ⟨refusal, herr⟩
      rw [hans] at herr
      exact nomatch herr
  · rintro ⟨refusal, herr⟩
    rcases Buffer.apply_cases ht operation with ⟨_, _, hsame⟩ | ⟨_, next, hans, _, _⟩
    · rw [hsame]
      exact ⟨rfl, rfl, fun _ => rfl⟩
    · rw [hans] at herr
      exact nomatch herr
  · intro offset hv
    have hcheck : (Editing.checkRange offset offset).run buffer = .ok () buffer :=
      Editing.checkRange_of_valid (Nat.le_refl offset) hv hv
    have hrun : (Operation.remove offset offset).editing.run buffer = .ok () buffer := by
      simp only [Operation.editing, Editing.remove, EStateM.run_bind, hcheck]
      simp
    rw [Buffer.apply, hrun]

end ParseView.Edit
