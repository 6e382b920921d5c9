import ParseView.Diagnostic.Basic
import ParseView.Edit.Buffer
import ParseView.Module.Basic
import ParseView.Options.Basic

/-!
# Engines

The parser itself is not part of the library. An engine turns options into a raw result or fails in
its own way; errors in the source are no failure, they are part of the result.
-/

namespace ParseView

/-- What a parser hands over: the tree as text, what it found besides, and the source ready for
edits. -/
structure RawResult where
  program : String
  moduleRecord : ModuleRecord := {}
  comments : List Comment := []
  errors : List Diagnostic := []
  buffer : Edit.Buffer
deriving DecidableEq, Repr

/-- A parser that fails with an `ε`. -/
structure Engine (ε : Type) where
  parse : ParseOptions → Except ε RawResult

/-- An engine that looks at the language of its options first. -/
def Engine.checkingLanguage {ε : Type} (refuse : ParseOptions.UnknownLanguage → ε)
    (engine : Engine ε) : Engine ε where
  parse options := do
    let _ ← options.resolvedLanguage.mapError refuse
    engine.parse options

end ParseView
