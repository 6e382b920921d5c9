import ParseView.Path

/-!
# Languages

The language of a source is one of the dialects that a parser knows. A file name tells it by its
extension.
-/

namespace ParseView

inductive Language where
  | js
  | jsx
  | ts
  | tsx
  /-- Declarations without code. -/
  | dts
deriving DecidableEq, Repr

namespace Language

def text : Language → String
  | .js => "js"
  | .jsx => "jsx"
  | .ts => "ts"
  | .tsx => "tsx"
  | .dts => "dts"

/-- Has the language types? -/
def isTyped : Language → Bool
  | .ts | .tsx | .dts => true
  | .js | .jsx => false

/-- Can elements be written in the language? -/
def hasElements : Language → Bool
  | .jsx | .tsx => true
  | .js | .ts | .dts => false

/-- Endings of files that hold declarations. -/
def declarationEndings : List String := [".d.ts", ".d.mts", ".d.cts"]

def ofExtension? : String → Option Language
  | "js" | "mjs" | "cjs" => some .js
  | "jsx" => some .jsx
  | "ts" | "mts" | "cts" => some .ts
  | "tsx" => some .tsx
  | _ => none

/-- The language that a path tells. -/
def ofPath? (path : String) : Option Language := do
  let name ← Path.fileName? path
  if declarationEndings.any fun ending => ending.toList.isSuffixOf name.toList then return .dts
  ofExtension? (← Path.extension? path)

end Language

end ParseView
