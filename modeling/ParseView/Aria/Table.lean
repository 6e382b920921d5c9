import ParseView.Aria.Authored

/-!
# The attributes of ARIA

The attributes with the types of their values, in the order in which they are listed.
-/

namespace ParseView.Aria

def plain (name tag : String) : String × Descriptor := (name, ⟨tag, none, false⟩)

/-- An attribute that can be undefined. -/
def optional (name tag : String) : String × Descriptor := (name, ⟨tag, none, true⟩)

/-- An attribute whose values are listed. -/
def chosen (name tag : String) (values : List AuthoredValue) : String × Descriptor :=
  (name, ⟨tag, some values, false⟩)

def authoredTable : AuthoredTable :=
  [ plain "aria-activedescendant" "id",
    plain "aria-atomic" "boolean",
    chosen "aria-autocomplete" "token"
      [.token "inline", .token "list", .token "both", .token "none"],
    plain "aria-braillelabel" "string",
    plain "aria-brailleroledescription" "string",
    plain "aria-busy" "boolean",
    plain "aria-checked" "tristate",
    plain "aria-colcount" "integer",
    plain "aria-colindex" "integer",
    plain "aria-colspan" "integer",
    plain "aria-controls" "idlist",
    chosen "aria-current" "token"
      [.token "page", .token "step", .token "location", .token "date", .token "time",
        .boolean true, .boolean false],
    plain "aria-describedby" "idlist",
    plain "aria-description" "string",
    plain "aria-details" "id",
    plain "aria-disabled" "boolean",
    chosen "aria-dropeffect" "tokenlist"
      [.token "copy", .token "execute", .token "link", .token "move", .token "none",
        .token "popup"],
    plain "aria-errormessage" "id",
    optional "aria-expanded" "boolean",
    plain "aria-flowto" "idlist",
    optional "aria-grabbed" "boolean",
    chosen "aria-haspopup" "token"
      [.boolean false, .boolean true, .token "menu", .token "listbox", .token "tree",
        .token "grid", .token "dialog"],
    optional "aria-hidden" "boolean",
    chosen "aria-invalid" "token"
      [.token "grammar", .boolean false, .token "spelling", .boolean true],
    plain "aria-keyshortcuts" "string",
    plain "aria-label" "string",
    plain "aria-labelledby" "idlist",
    plain "aria-level" "integer",
    chosen "aria-live" "token" [.token "assertive", .token "off", .token "polite"],
    plain "aria-modal" "boolean",
    plain "aria-multiline" "boolean",
    plain "aria-multiselectable" "boolean",
    chosen "aria-orientation" "token" [.token "vertical", .token "undefined", .token "horizontal"],
    plain "aria-owns" "idlist",
    plain "aria-placeholder" "string",
    plain "aria-posinset" "integer",
    plain "aria-pressed" "tristate",
    plain "aria-readonly" "boolean",
    chosen "aria-relevant" "tokenlist"
      [.token "additions", .token "all", .token "removals", .token "text"],
    plain "aria-required" "boolean",
    plain "aria-roledescription" "string",
    plain "aria-rowcount" "integer",
    plain "aria-rowindex" "integer",
    plain "aria-rowspan" "integer",
    optional "aria-selected" "boolean",
    plain "aria-setsize" "integer",
    chosen "aria-sort" "token"
      [.token "ascending", .token "descending", .token "none", .token "other"],
    plain "aria-valuemax" "number",
    plain "aria-valuemin" "number",
    plain "aria-valuenow" "number",
    plain "aria-valuetext" "string"]

/-- The rules for all attributes. -/
def rules : List (String × Rule) :=
  authoredTable.filterMap fun (name, descriptor) => descriptor.rule?.map fun rule => (name, rule)

/-- The names of all attributes in their order. -/
def names : List String := rules.map (·.1)

/-- The rule for an attribute, whose name is given in small letters. -/
def rule? (name : String) : Option Rule := rules.lookup name

end ParseView.Aria
