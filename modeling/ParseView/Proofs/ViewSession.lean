import ParseView.Proofs.EditMargins
import ParseView.View.Session

/-!
# A session answers as if nothing were kept

The views of a parse result fill their slots when they are first read, and two kinds of
queries fill the slot of the tree. Nobody can tell from the answers. Beside the session
stands an answer to each query that looks at the raw result and decodes it anew; from
the queries before it takes the edits that were accepted and whether one of them wanted
the tree. `Keeps` says what the slots may hold between queries, and one query keeps it,
whatever it reads or edits. The slot for edits holds a handle, so what is read through it
is the buffer as the edits before left it, whenever the slot was filled.

An edit that is refused must not show either. That the buffer is then what it was is
known of rows that tile their source, which every history of edits leaves them doing.
-/

namespace ParseView

open Edit (Buffer Operation)

/-! ## Accepted edits -/

namespace Edit.Buffer

variable {buffer : Buffer}

/-- The first edit of a history is left out if it is refused, and done if it is not. -/
theorem accepted_cases (ht : buffer.Tiled) (operation : Operation) (rest : List Operation) :
    (buffer.perform operation = buffer ∧
        buffer.accepted (operation :: rest) = buffer.accepted rest) ∨
      ∃ next, buffer.apply operation = .ok next ∧ buffer.perform operation = next ∧
        buffer.accepted (operation :: rest) = operation :: next.accepted rest := by
  rw [accepted]
  rcases apply_cases ht operation with ⟨_, ⟨refusal, _, hans⟩, h⟩ | ⟨_, next, hans, h, _⟩
  · refine .inl ⟨h, ?_⟩
    rw [hans, h, List.nil_append]
  · refine .inr ⟨next, hans, h, ?_⟩
    rw [hans, h, List.singleton_append]

/-- The accepted edits of a history can be made without the refused ones. -/
theorem replay_accepted (ht : buffer.Tiled) (history : List Operation) :
    (buffer.accepted history).foldlM apply buffer = .ok (buffer.run history) := by
  induction history generalizing buffer with
  | nil => rfl
  | cons operation rest ih =>
      have hrest := ih (ht.perform operation)
      rcases accepted_cases ht operation rest with ⟨h, hacc⟩ | ⟨next, hans, h, hacc⟩
      · rw [hacc, Buffer.run, List.foldl_cons, ← Buffer.run, h]
        rwa [h] at hrest
      · rw [hacc, List.foldlM_cons, hans, Buffer.run, List.foldl_cons, ← Buffer.run, h]
        rwa [h] at hrest

theorem run_accepted (ht : buffer.Tiled) (history : List Operation) :
    buffer.run (buffer.accepted history) = buffer.run history := by
  induction history generalizing buffer with
  | nil => rfl
  | cons operation rest ih =>
      have hrest := ih (ht.perform operation)
      rcases accepted_cases ht operation rest with ⟨h, hacc⟩ | ⟨next, -, h, hacc⟩
      · rw [hacc, run, run, List.foldl_cons, h]
        rwa [h] at hrest
      · rw [hacc, run, run, List.foldl_cons, List.foldl_cons, h]
        rwa [h] at hrest

end Edit.Buffer

/-! ## Answers without slots -/

namespace Query

/-- Does the query want the tree? -/
def wantsTree : Query → Bool
  | .program | .check => true
  | _ => false

/-- Does the query go through the handle on the buffer? -/
def wantsEditor : Query → Bool
  | .text | .edit _ | .map _ => true
  | _ => false

def operation? : Query → Option Operation
  | .edit operation => some operation
  | _ => none

end Query

namespace RawResult

/-- The edits that are accepted among some queries. -/
def acceptedEdits (raw : RawResult) (queries : List Query) : List Operation :=
  raw.buffer.accepted (queries.filterMap Query.operation?)

/-- The buffer after some queries. -/
def bufferAfter (raw : RawResult) (queries : List Query) : Buffer :=
  raw.buffer.run (raw.acceptedEdits queries)

/-- Did one of some queries decode the tree? -/
def isRealizedAfter (raw : RawResult) (queries : List Query) : Bool :=
  queries.any Query.wantsTree && (Tree.decode raw.program).isOk

/-- The warnings for the tree; one that does not decode has nothing to tell. -/
def warnings (raw : RawResult) : List Diagnostic :=
  match Tree.decode raw.program with
  | .ok node => Aria.check node
  | .error _ => []

/-- The answer to a query after others, from the raw result alone. -/
def answerAfter (raw : RawResult) (before : List Query) : Query → Answer
  | .isProgramRealized => .flag (raw.isRealizedAfter before)
  | .isValid => .flag (!raw.errors.any Diagnostic.isError)
  | .program => .program (Tree.decode raw.program)
  | .moduleRecord => .moduleRecord raw.moduleRecord
  | .comments => .comments raw.comments
  | .errors => .diagnostics raw.errors
  | .check => .diagnostics raw.warnings
  | .text => .text (String.ofList (raw.bufferAfter before).render)
  | .edit operation =>
    .edit (((raw.bufferAfter before).apply operation).map fun _ => ())
      (raw.bufferAfter (before ++ [.edit operation]))
  | .map options => .map (SourceMap.ofBuffer (raw.bufferAfter before) options)

variable {raw : RawResult} {before : List Query} {query : Query}

theorem bufferAfter_concat (h : query.operation? = none) :
    raw.bufferAfter (before ++ [query]) = raw.bufferAfter before := by
  simp only [bufferAfter, acceptedEdits, List.filterMap_append, List.filterMap_cons, h,
    List.filterMap_nil, List.append_nil]

/-- To be made only if they are accepted and to be made as they come is the same. -/
theorem bufferAfter_concat_edit (ht : raw.buffer.Tiled) (operation : Operation) :
    raw.bufferAfter (before ++ [.edit operation]) =
      (raw.bufferAfter before).perform operation := by
  rw [bufferAfter, acceptedEdits, Buffer.run_accepted ht, List.filterMap_append, Buffer.run,
    List.foldl_append, bufferAfter, acceptedEdits, Buffer.run_accepted ht]
  rfl

end RawResult

/-! ## What the slots hold -/

/-- The slots of a result after some queries: each is empty or holds what the raw result
says. That of the tree is filled as soon as the tree was decoded, and that of the handle
as soon as a text, a map or an edit was asked for. -/
structure Keeps (raw : RawResult) (before : List Query) (result : ParseResult) : Prop where
  toRaw : result.raw = { raw with buffer := raw.bufferAfter before }
  program : result.program =
    if before.any Query.wantsTree then (Tree.decode raw.program).toOption else none
  moduleRecord : result.moduleRecord.getD raw.moduleRecord = raw.moduleRecord
  comments : result.comments.getD raw.comments = raw.comments
  errors : result.errors.getD raw.errors = raw.errors
  editor : result.editor = if before.any Query.wantsEditor then some raw.editor else none

namespace Keeps

variable {raw : RawResult} {before : List Query} {query : Query} {result : ParseResult}

theorem wrap (raw : RawResult) : Keeps raw [] (.wrap raw) := ⟨rfl, rfl, rfl, rfl, rfl, rfl⟩

/-- A query that does not edit fills the slot that it wants, and with the same at any time. -/
theorem concat (h : Keeps raw before result) (hedit : query.operation? = none) :
    Keeps raw (before ++ [query])
      { result with
        program := if query.wantsTree then (Tree.decode raw.program).toOption else result.program
        editor := if query.wantsEditor then some raw.editor else result.editor } where
  toRaw := by rw [h.toRaw, RawResult.bufferAfter_concat hedit]
  program := by cases htree : query.wantsTree <;> simp [h.program, htree]
  moduleRecord := h.moduleRecord
  comments := h.comments
  errors := h.errors
  editor := by cases heditor : query.wantsEditor <;> simp [h.editor, heditor]

theorem isProgramRealized (h : Keeps raw before result) :
    result.isProgramRealized = raw.isRealizedAfter before := by
  rw [ParseResult.isProgramRealized, h.program, RawResult.isRealizedAfter]
  cases before.any Query.wantsTree <;> cases Tree.decode raw.program <;> rfl

/-- A slot that is filled holds the tree. One that is empty is filled now or, if the tree
does not decode, stays empty for the next who asks. -/
theorem readProgram (h : Keeps raw before result) :
    result.readProgram =
      (Tree.decode raw.program,
        { result with program := (Tree.decode raw.program).toOption }) := by
  obtain ⟨kept, program, moduleRecord, comments, errors, editor⟩ := result
  obtain rfl : kept = { raw with buffer := raw.bufferAfter before } := h.toRaw
  obtain rfl : program =
    if before.any Query.wantsTree then (Tree.decode raw.program).toOption else none := h.program
  rw [ParseResult.readProgram]
  cases before.any Query.wantsTree <;> cases Tree.decode raw.program <;> rfl

theorem readCheck (h : Keeps raw before result) :
    result.readCheck =
      (raw.warnings, { result with program := (Tree.decode raw.program).toOption }) := by
  rw [ParseResult.readCheck, h.readProgram, RawResult.warnings]
  cases Tree.decode raw.program <;> rfl

theorem readModule (h : Keeps raw before result) :
    result.readModule.1 = raw.moduleRecord ∧ Keeps raw before result.readModule.2 := by
  have hread : result.moduleRecord.getD result.raw.moduleRecord = raw.moduleRecord := by
    rw [h.toRaw]
    exact h.moduleRecord
  exact ⟨hread, { h with moduleRecord := hread }⟩

theorem readComments (h : Keeps raw before result) :
    result.readComments.1 = raw.comments ∧ Keeps raw before result.readComments.2 := by
  have hread : result.comments.getD result.raw.comments = raw.comments := by
    rw [h.toRaw]
    exact h.comments
  exact ⟨hread, { h with comments := hread }⟩

theorem readErrors (h : Keeps raw before result) :
    result.readErrors.1 = raw.errors ∧ Keeps raw before result.readErrors.2 := by
  have hread : result.errors.getD result.raw.errors = raw.errors := by
    rw [h.toRaw]
    exact h.errors
  exact ⟨hread, { h with errors := hread }⟩

/-- The handle is the same whether the slot held it or is filled now. -/
theorem readEditor (h : Keeps raw before result) :
    result.readEditor = (raw.editor, { result with editor := some raw.editor }) := by
  have hread : result.editor.getD result.raw.editor = raw.editor := by
    rw [h.editor]
    cases before.any Query.wantsEditor <;> rfl
  rw [ParseResult.readEditor, hread]

theorem readText (h : Keeps raw before result) :
    result.readText = (String.ofList (raw.bufferAfter before).render,
      { result with editor := some raw.editor }) := by
  rw [ParseResult.readText, h.readEditor, h.toRaw]
  rfl

theorem readMap (h : Keeps raw before result) (options : SourceMap.Options) :
    result.readMap options = (SourceMap.ofBuffer (raw.bufferAfter before) options,
      { result with editor := some raw.editor }) := by
  rw [ParseResult.readMap, h.readEditor, h.toRaw]
  rfl

/-- An edit goes to the buffer behind the handle, which is that of the raw result. -/
theorem edit_eq (h : Keeps raw before result) (operation : Operation) :
    result.edit operation = (((raw.bufferAfter before).apply operation).map fun _ => (),
      { result with
        raw := { raw with buffer := (raw.bufferAfter before).perform operation }
        editor := some raw.editor }) := by
  rw [ParseResult.edit, h.readEditor, h.toRaw]
  rfl

theorem edit (ht : raw.buffer.Tiled) (h : Keeps raw before result) (operation : Operation) :
    Keeps raw (before ++ [.edit operation]) (result.edit operation).2 := by
  rw [h.edit_eq]
  exact
    { toRaw := by rw [RawResult.bufferAfter_concat_edit ht]
      program := by simp [h.program, Query.wantsTree]
      moduleRecord := h.moduleRecord
      comments := h.comments
      errors := h.errors
      editor := by simp [Query.wantsEditor] }

/-- One query is answered as it is from the raw result, and leaves the slots to hold what
they may. -/
theorem answer (ht : raw.buffer.Tiled) (h : Keeps raw before result) (query : Query) :
    (result.answer query).1 = raw.answerAfter before query ∧
      Keeps raw (before ++ [query]) (result.answer query).2 := by
  cases query with
  | isProgramRealized => exact ⟨congrArg Answer.flag h.isProgramRealized, h.concat rfl⟩
  | isValid =>
      obtain ⟨hread, hkeep⟩ := h.readErrors
      refine ⟨?_, hkeep.concat rfl⟩
      show Answer.flag (!result.readErrors.1.any Diagnostic.isError) = _
      rw [hread, RawResult.answerAfter]
  | program =>
      rw [ParseResult.answer, h.readProgram]
      exact ⟨rfl, h.concat rfl⟩
  | moduleRecord =>
      obtain ⟨hread, hkeep⟩ := h.readModule
      exact ⟨congrArg Answer.moduleRecord hread, hkeep.concat rfl⟩
  | comments =>
      obtain ⟨hread, hkeep⟩ := h.readComments
      exact ⟨congrArg Answer.comments hread, hkeep.concat rfl⟩
  | errors =>
      obtain ⟨hread, hkeep⟩ := h.readErrors
      exact ⟨congrArg Answer.diagnostics hread, hkeep.concat rfl⟩
  | check =>
      rw [ParseResult.answer, h.readCheck]
      exact ⟨rfl, h.concat rfl⟩
  | text =>
      rw [ParseResult.answer, h.readText]
      exact ⟨rfl, h.concat rfl⟩
  | edit operation =>
      have hkeep := h.edit ht operation
      refine ⟨?_, hkeep⟩
      have hafter : (result.edit operation).2.raw.buffer =
          raw.bufferAfter (before ++ [.edit operation]) := by rw [hkeep.toRaw]
      show Answer.edit (result.edit operation).1 (result.edit operation).2.raw.buffer = _
      rw [hafter, h.edit_eq, RawResult.answerAfter]
  | map options =>
      rw [ParseResult.answer, h.readMap]
      exact ⟨rfl, h.concat rfl⟩

/-- After a whole session every answer is the one from the raw result. -/
theorem session (ht : raw.buffer.Tiled) (h : Keeps raw before result) (queries : List Query) :
    (result.session queries).1.length = queries.length ∧
      (∀ first query rest, queries = first ++ query :: rest →
        (result.session queries).1[first.length]? =
          some (raw.answerAfter (before ++ first) query)) ∧
      Keeps raw (before ++ queries) (result.session queries).2 := by
  induction queries generalizing before result with
  | nil =>
      refine ⟨rfl, fun first query rest hsplit => ?_, ?_⟩
      · exact absurd hsplit.symm (by simp)
      · rwa [List.append_nil]
  | cons query queries ih =>
      obtain ⟨hanswer, hkeep⟩ := h.answer ht query
      obtain ⟨hlength, hanswers, hlast⟩ := ih hkeep
      rw [ParseResult.session]
      refine ⟨congrArg (· + 1) hlength, fun first other rest hsplit => ?_, ?_⟩
      · cases first with
        | nil =>
            obtain ⟨rfl, rfl⟩ := List.cons.inj hsplit
            rw [List.append_nil, ← hanswer]
            rfl
        | cons head first =>
            obtain ⟨rfl, hrest⟩ := List.cons.inj hsplit
            have := hanswers first other rest hrest
            rwa [List.append_assoc] at this
      · rwa [List.append_assoc] at hlast

end Keeps

/-- Whatever is asked of a parse result, in whatever order and how often, each answer is
the one that the raw result gives without any slot, after the edits accepted so far. The
tree counts as realized if one of the queries decoded it, and what is handed back is the
raw result with exactly the accepted edits. -/
theorem ParseResult.session_eq_uncached (raw : RawResult) (source : List Char)
    (history : List Operation) (queries : List Query) :
    let raw := { raw with buffer := (Buffer.ofSource source).run history }
    let answers := ((wrap raw).session queries).1
    let final := ((wrap raw).session queries).2
    answers.length = queries.length ∧
      (∀ before query after, queries = before ++ query :: after →
        answers[before.length]? = some (raw.answerAfter before query)) ∧
      final.isProgramRealized = raw.isRealizedAfter queries ∧
      final.toRaw = { raw with buffer := final.toRaw.buffer } ∧
      (raw.acceptedEdits queries).foldlM Buffer.apply raw.buffer = .ok final.toRaw.buffer := by
  intro raw answers final
  have ht : raw.buffer.Tiled := (Buffer.ofSource_tiled source).run history
  obtain ⟨hlength, hanswers, hkeep⟩ := (Keeps.wrap raw).session ht queries
  have hfinal : final.raw = { raw with buffer := raw.bufferAfter queries } := hkeep.toRaw
  refine ⟨hlength, hanswers, hkeep.isProgramRealized, ?_, ?_⟩
  · rw [toRaw, hfinal]
  · rw [toRaw, hfinal, RawResult.bufferAfter, RawResult.acceptedEdits, Buffer.run_accepted ht,
      Buffer.replay_accepted ht]

end ParseView
