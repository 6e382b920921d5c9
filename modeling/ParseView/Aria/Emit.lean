import ParseView.Aria.Authored

/-!
# Tables as source text

The rules of a table are written as a constant of the program that looks attributes up, one line an
entry, in the order of the table.
-/

namespace ParseView.Aria

/-- Where the generated table lies. -/
def tablePath : String := "crates/oxbind-rules/src/aria/generated.rs"

/-- Where the authored table lies. -/
def authoredPath : String := "crates/oxbind-devtools/data/aria_props.json"

def sourceHeader : String :=
  "// @generated by `oxbind-devtools aria-table`. Do not edit by hand.\n"
    ++ "// Source: " ++ authoredPath ++ "\n"
    ++ "\n"
    ++ "use super::\x7bAriaPropType, AriaPropTypeRule\x7d;\n"
    ++ "\n"
    ++ "#[rustfmt::skip]\n"
    ++ "pub(crate) const ARIA_PROP_TYPES: &[(&str, AriaPropTypeRule)] = &[\n"

def sourceFooter : String := "];\n"

def allowedSource : Option (List String) → String
  | none => "None"
  | some tokens => "Some(&[" ++ ", ".intercalate (tokens.map Text.quoted) ++ "])"

def Rule.source (name : String) (rule : Rule) : String :=
  "    (" ++ Text.quoted name ++ ", AriaPropTypeRule \x7b prop_type: AriaPropType::"
    ++ rule.kind.variant ++ ", allowed_values: " ++ allowedSource rule.allowed
    ++ ", allow_undefined: " ++ toString rule.allowUndefined
    ++ ", allow_boolean_values: " ++ toString rule.allowBooleans ++ " \x7d),\n"

/-- The source text for rules. -/
def sourceOfRules (rules : List (String × Rule)) : String :=
  sourceHeader ++ String.join (rules.map fun entry => entry.2.source entry.1) ++ sourceFooter

/-- The source text for a table. -/
def AuthoredTable.source (table : AuthoredTable) : Except TableError String :=
  table.rules.map sourceOfRules

end ParseView.Aria
