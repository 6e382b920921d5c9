import ParseView.Proofs.SettingMerge

/-!
# Which language a source is parsed as

A language can be set for one source, set in a configuration, or told by the name of the
file, and it is asked for in this order (`language?_withDefaults`). Filling in the options
takes a configured language where none was set, and what was filled in counts as set: the
name of a file is asked only where neither says anything. A configuration is therefore
more than a fallback for names that tell no language, and `name_decides_iff` says when the
name decides all the same.
-/

namespace ParseView

/-- The form that the tree of a language has. -/
def Language.treeForm (language : Language) : TreeForm := if language.isTyped then .ts else .js

namespace ParseOptions

variable {options : ParseOptions} {defaults : ParserDefaults} {language : Language}

theorem language?_withDefaults :
    (options.withDefaults defaults).language? =
      (options.settings.language.or defaults.language).or
        (Language.ofPath? options.fileName) := rfl

theorem resolvedLanguage_eq_ok_iff :
    options.resolvedLanguage = .ok language ↔ options.language? = some language := by
  rw [resolvedLanguage]
  cases options.language? <;> simp

theorem resolvedLanguage_of_none (h : options.language? = none) :
    options.resolvedLanguage = .error ⟨options.fileName⟩ := by
  rw [resolvedLanguage, h]

theorem resolvedTreeForm_of_unset (h : options.settings.treeForm = none) :
    options.resolvedTreeForm = options.resolvedLanguage.map Language.treeForm := by
  rw [resolvedTreeForm, h]
  rfl

/-- Along a chain of configurations the nearest one that sets a language is asked after the
options themselves and before the file name. -/
theorem language?_of_chain (first : Configuration) (rest : List Configuration) :
    (options.withDefaults (rest.foldl Configuration.merge first).parserDefaults).language? =
      (options.settings.language.or
        ((first :: rest).findSome? (·.parserDefaults.language))).or
        (Language.ofPath? options.fileName) := by
  have hchain := Configuration.foldl_merge_eq_findSome? (·.parserDefaults.language)
    (fun a b => by rw [Configuration.parserDefaults_merge]; rfl) first rest
  rw [language?_withDefaults, hchain]

/-- Where the options set no language, the one that the file name tells is taken exactly if
no other one is configured: a configured language is taken whatever the name tells. A name
that tells none leaves it to the configuration, and without one there is no language. The
tree has the form of the language that was taken. -/
theorem name_decides_iff (options : ParseOptions) (defaults : ParserDefaults)
    (hunset : options.settings.language = none) :
    let filled := options.withDefaults defaults
    (∀ language, Language.ofPath? options.fileName = some language →
      (filled.resolvedLanguage = .ok language ↔
        ∀ configured ∈ defaults.language, configured = language)) ∧
    (Language.ofPath? options.fileName = none →
      filled.resolvedLanguage =
        match defaults.language with
        | some configured => .ok configured
        | none => .error ⟨options.fileName⟩) ∧
    (∀ configured ∈ defaults.language, filled.resolvedLanguage = .ok configured) ∧
    (options.settings.treeForm = none → defaults.treeForm = none →
      filled.resolvedTreeForm = filled.resolvedLanguage.map Language.treeForm) := by
  intro filled
  have hlanguage : filled.language? =
      defaults.language.or (Language.ofPath? options.fileName) := by
    rw [language?_withDefaults, hunset, Option.none_or]
  refine ⟨fun language htold => ?_, fun huntold => ?_, fun configured hset => ?_,
    fun hform hdefault => ?_⟩
  · rw [resolvedLanguage_eq_ok_iff, hlanguage, htold]
    cases defaults.language <;> simp
  · rw [huntold, Option.or_none] at hlanguage
    cases hset : defaults.language with
    | none => exact resolvedLanguage_of_none (hlanguage.trans hset)
    | some configured => exact resolvedLanguage_eq_ok_iff.mpr (hlanguage.trans hset)
  · rw [resolvedLanguage_eq_ok_iff, hlanguage, Option.mem_def.mp hset, Option.some_or]
  · refine resolvedTreeForm_of_unset ?_
    rw [show filled.settings.treeForm = options.settings.treeForm.or defaults.treeForm from rfl,
      hform, hdefault, Option.or_none]

/-- A name that tells no language, and one that tells the language which is configured. -/
theorem name_decides_component :
    (ParseOptions.mk "src/App.vue" "" {}).settings.language = none ∧
    Language.ofPath? "src/App.vue" = none ∧ Language.ofPath? "src/App.d.ts" = some .dts ∧
    ((ParseOptions.mk "src/App.vue" "" {}).withDefaults
      { language := some .tsx }).resolvedLanguage = .ok .tsx ∧
    ((ParseOptions.mk "src/App.vue" "" {}).withDefaults
      { language := some .tsx }).resolvedTreeForm = .ok .ts ∧
    ((ParseOptions.mk "src/App.d.ts" "" {}).withDefaults
      { language := some .dts }).resolvedLanguage = .ok .dts := by
  have hvue : Language.ofPath? "src/App.vue" = none := by decide +kernel
  have hdts : Language.ofPath? "src/App.d.ts" = some .dts := by decide +kernel
  obtain ⟨-, huntold, -, hform⟩ :=
    name_decides_iff ⟨"src/App.vue", "", {}⟩ { language := some .tsx } rfl
  obtain ⟨htold, -⟩ := name_decides_iff ⟨"src/App.d.ts", "", {}⟩ { language := some .dts } rfl
  refine ⟨rfl, hvue, hdts, huntold hvue, ?_, (htold .dts hdts).mpr (by simp)⟩
  rw [hform rfl rfl, huntold hvue]
  rfl

/-- A file whose name says that it is typed, under a configuration for an untyped language. -/
theorem configured_before_name :
    (ParseOptions.mk "a.ts" "" {}).settings.language = none ∧
    Language.ofPath? "a.ts" = some .ts ∧
    ((ParseOptions.mk "a.ts" "" {}).withDefaults { language := some .js }).resolvedLanguage =
      .ok .js ∧
    ((ParseOptions.mk "a.ts" "" {}).withDefaults { language := some .js }).resolvedTreeForm =
      .ok .js ∧
    ¬ ∀ (options : ParseOptions) (defaults : ParserDefaults) (language : Language),
      options.settings.language = none → Language.ofPath? options.fileName = some language →
      (options.withDefaults defaults).resolvedLanguage = .ok language := by
  have hts : Language.ofPath? "a.ts" = some .ts := by decide +kernel
  refine ⟨rfl, hts, rfl, rfl, fun hall => ?_⟩
  have hwrong := hall ⟨"a.ts", "", {}⟩ { language := some .js } .ts rfl hts
  exact nomatch hwrong

end ParseOptions

end ParseView
