import ParseView.Config.Basic

/-!
# Settings are filled in from the first that has them

Options, sections and whole configurations are completed alike: what is set stays, and what
is not set comes from the next in line. `Settings` says this of a record, setting by
setting, and from it follow the laws of `Completes`: completing is associative, with itself
it changes nothing, and a record without settings is neutral.

A section may be absent. An absent section and one without settings are different values,
but the laws pass from sections to sections that may be absent, and what a configuration
says of a setting does not depend on the difference. The reference to a schema is outside
of all this: the first configuration keeps its own.
-/

namespace ParseView

/-! ## Records of settings -/

section Settings

variable {α ι : Type} {Setting : ι → Type} {get? : α → (i : ι) → Option (Setting i)}
  {orElse : α → α → α} {empty : α}

/-- Completing one record with another: a monoid in which nothing is gained twice. -/
structure Completes (orElse : α → α → α) (empty : α) : Prop where
  assoc : ∀ a b c, orElse (orElse a b) c = orElse a (orElse b c)
  self : ∀ a, orElse a a = a
  right : ∀ a, orElse a empty = a
  left : ∀ a, orElse empty a = a

/-- A record is what its settings are, and of each the first one set is taken. -/
structure Settings (get? : α → (i : ι) → Option (Setting i)) (orElse : α → α → α)
    (empty : α) : Prop where
  ext : ∀ a b, (∀ i, get? a i = get? b i) → a = b
  get?_orElse : ∀ a b i, get? (orElse a b) i = (get? a i).or (get? b i)
  get?_empty : ∀ i, get? empty i = none

theorem Settings.completes (h : Settings get? orElse empty) : Completes orElse empty where
  assoc a b c := h.ext _ _ fun i => by
    rw [h.get?_orElse, h.get?_orElse, h.get?_orElse, h.get?_orElse, Option.or_assoc]
  self a := h.ext _ _ fun i => by rw [h.get?_orElse, Option.or_self]
  right a := h.ext _ _ fun i => by rw [h.get?_orElse, h.get?_empty, Option.or_none]
  left a := h.ext _ _ fun i => by rw [h.get?_orElse, h.get?_empty, Option.none_or]

/-- Sections that may be absent are completed like the sections. -/
theorem Completes.sections (h : Completes orElse empty) :
    Completes (Configuration.mergeSections orElse) none where
  assoc a b c := by
    cases a <;> cases b <;> cases c <;> simp [Configuration.mergeSections, h.assoc]
  self a := by cases a <;> simp [Configuration.mergeSections, h.self]
  right a := by cases a <;> rfl
  left a := by cases a <;> rfl

/-- An absent section says as much as one without settings. -/
theorem Completes.getD_mergeSections (h : Completes orElse empty) (a b : Option α) :
    (Configuration.mergeSections orElse a b).getD empty =
      orElse (a.getD empty) (b.getD empty) := by
  cases a <;> cases b <;> simp [Configuration.mergeSections, h.left, h.right]

end Settings

/-! ## The settings of a parser and of source maps -/

namespace ParserDefaults

/-- What can be set for a parser. -/
inductive Name where
  | goal
  | language
  | treeForm
  | range
  | preserveParens
  | showSemanticErrors

def Name.Setting : Name → Type
  | .goal => Goal
  | .language => Language
  | .treeForm => TreeForm
  | .range | .preserveParens | .showSemanticErrors => Bool

def get? (defaults : ParserDefaults) : (name : Name) → Option name.Setting
  | .goal => defaults.goal
  | .language => defaults.language
  | .treeForm => defaults.treeForm
  | .range => defaults.range
  | .preserveParens => defaults.preserveParens
  | .showSemanticErrors => defaults.showSemanticErrors

theorem settings : Settings get? orElse {} where
  ext a b h := by
    cases a
    cases b
    rw [mk.injEq]
    exact ⟨h .goal, h .language, h .treeForm, h .range, h .preserveParens,
      h .showSemanticErrors⟩
  get?_orElse a b name := by cases name <;> rfl
  get?_empty name := by cases name <;> rfl

end ParserDefaults

namespace SourceMap.Defaults

/-- What can be set for source maps. -/
inductive Name where
  | includeContent
  | everyChar

def get? (defaults : Defaults) : Name → Option Bool
  | .includeContent => defaults.includeContent
  | .everyChar => defaults.everyChar

theorem settings : Settings get? orElse {} where
  ext a b h := by
    cases a
    cases b
    rw [mk.injEq]
    exact ⟨h .includeContent, h .everyChar⟩
  get?_orElse a b name := by cases name <;> rfl
  get?_empty name := by cases name <;> rfl

end SourceMap.Defaults

/-! ## Configurations -/

namespace Configuration

variable {a b c : Configuration}

theorem merge_assoc : (a.merge b).merge c = a.merge (b.merge c) := by
  rw [merge, merge, merge, merge, ParserDefaults.settings.completes.sections.assoc,
    SourceMap.Defaults.settings.completes.sections.assoc]

theorem merge_self : a.merge a = a := by
  rw [merge, ParserDefaults.settings.completes.sections.self,
    SourceMap.Defaults.settings.completes.sections.self]

theorem merge_default : a.merge {} = a := by
  rw [merge, ParserDefaults.settings.completes.sections.right,
    SourceMap.Defaults.settings.completes.sections.right]

theorem default_merge : Configuration.merge {} a = { a with schema := none } := by
  rw [merge, ParserDefaults.settings.completes.sections.left,
    SourceMap.Defaults.settings.completes.sections.left]

theorem parserDefaults_merge :
    (a.merge b).parserDefaults = a.parserDefaults.orElse b.parserDefaults :=
  ParserDefaults.settings.completes.getD_mergeSections a.parser b.parser

theorem sourceMapDefaults_merge :
    (a.merge b).sourceMapDefaults = a.sourceMapDefaults.orElse b.sourceMapDefaults :=
  SourceMap.Defaults.settings.completes.getD_mergeSections a.sourceMap b.sourceMap

/-- Along a chain of configurations the first one that has a setting is asked for it, whatever
kind of setting that is. -/
theorem foldl_merge_eq_findSome? {Setting : Type} (get? : Configuration → Option Setting)
    (hmerge : ∀ a b, get? (a.merge b) = (get? a).or (get? b)) (first : Configuration)
    (rest : List Configuration) :
    get? (rest.foldl merge first) = (first :: rest).findSome? get? := by
  induction rest generalizing first with
  | nil => simp
  | cons next rest ih =>
      rw [List.foldl_cons, ih, List.findSome?_cons, List.findSome?_cons, List.findSome?_cons,
        hmerge]
      cases get? first <;> rfl

/-- Merging configurations is associative, changes nothing when done with the same one again,
and has the empty configuration as a neutral element, on the left up to the reference to a
schema. The defaults of a merged configuration are those of its parts, the first one set of
each, and so along any chain of configurations. Options are completed by the same rule: with
one set of defaults after the other as with both merged, keeping the source, its name and all
that is set. -/
theorem merge_fills_gaps :
    (∀ a b c : Configuration, (a.merge b).merge c = a.merge (b.merge c)) ∧
    (∀ a : Configuration, a.merge a = a ∧ a.merge {} = a ∧
      merge {} a = { a with schema := none }) ∧
    (∀ a b : Configuration, (a.merge b).schema = a.schema ∧
      (a.merge b).parserDefaults = a.parserDefaults.orElse b.parserDefaults ∧
      (a.merge b).sourceMapDefaults = a.sourceMapDefaults.orElse b.sourceMapDefaults) ∧
    (∀ (first : Configuration) (rest : List Configuration),
      (∀ name, (rest.foldl merge first).parserDefaults.get? name =
        (first :: rest).findSome? (·.parserDefaults.get? name)) ∧
      ∀ name, (rest.foldl merge first).sourceMapDefaults.get? name =
        (first :: rest).findSome? (·.sourceMapDefaults.get? name)) ∧
    (∀ (options : ParseOptions) (a b : ParserDefaults),
      (options.withDefaults a).withDefaults b = options.withDefaults (a.orElse b)) ∧
    ∀ (options : ParseOptions) (a : ParserDefaults),
      (options.withDefaults a).fileName = options.fileName ∧
      (options.withDefaults a).source = options.source ∧
      ∀ name, (options.withDefaults a).settings.get? name =
        (options.settings.get? name).or (a.get? name) := by
  refine ⟨fun a b c => merge_assoc, fun a => ⟨merge_self, merge_default, default_merge⟩,
    fun a b => ⟨rfl, parserDefaults_merge, sourceMapDefaults_merge⟩,
    fun first rest => ⟨fun name => ?_, fun name => ?_⟩, fun options a b => ?_,
    fun options a => ⟨rfl, rfl, ParserDefaults.settings.get?_orElse options.settings a⟩⟩
  · refine foldl_merge_eq_findSome? (·.parserDefaults.get? name) (fun a b => ?_) first rest
    rw [parserDefaults_merge, ParserDefaults.settings.get?_orElse]
  · refine foldl_merge_eq_findSome? (·.sourceMapDefaults.get? name) (fun a b => ?_) first rest
    rw [sourceMapDefaults_merge, SourceMap.Defaults.settings.get?_orElse]
  · rw [ParseOptions.withDefaults, ParseOptions.withDefaults, ParseOptions.withDefaults,
      ParserDefaults.settings.completes.assoc]

/-- A section without settings stays one, so that a merge can differ from both of its parts. -/
example : merge { parser := some {} } { sourceMap := some {} } =
    { parser := some {}, sourceMap := some {} } := rfl

end Configuration

end ParseView
