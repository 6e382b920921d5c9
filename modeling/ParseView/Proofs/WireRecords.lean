import ParseView.Config.Basic
import ParseView.Diagnostic.Codec
import ParseView.Module.Codec
import ParseView.Proofs.RecordReading

/-!
# Records come back from their documents

Module records, comments, diagnostics, parse options and configurations are written and
read field by field, each by rules of its own: a field may be left out when it is
absent or be written as null, and what is absent in a document may be required, null or
a default. Here every record is taken through its fields once, in the order in which it
is built, from the spans upwards; the five kinds of documents follow.
-/

namespace ParseView.Json

variable {α : Type}

/-- Reading undoes writing, so that a document that was read and written once stays as
it is when that is done again. -/
structure RoundTrips (read : Reader α) (write : α → Value) : Prop where
  read_written : ∀ x, readText read (write x).text = .ok x
  settled : ∀ text written, (readText read text).map (fun x => (write x).text) = .ok written →
    (readText read written).map (fun x => (write x).text) = .ok written

theorem Recovers.roundTrips {read : Reader α} {write : α → Value} (h : Recovers read write) :
    RoundTrips read write where
  read_written := h.readText
  settled text written hw := by
    cases hread : Json.readText read text with
    | error refusal =>
        rw [hread] at hw
        exact nomatch hw
    | ok x =>
        rw [hread] at hw
        obtain rfl : (write x).text = written := Except.ok.inj hw
        rw [h.readText x]
        rfl

end ParseView.Json

namespace ParseView

open Json (Record Recovers RoundTrips ScansFields recovers_text recovers_boolean recovers_uint32
  recovers_oneOf)

/-! ## Spans -/

theorem Span.recovers : Recovers Span.read Span.toJson :=
  Record.recovers _ (by simp) (by simp [Fields.names]) fun
    | ⟨start, stop⟩ => Record.Takes.map (.field recovers_uint32 rfl) Span.mk
        |>.seq (.field recovers_uint32 rfl)

theorem ValueSpan.recovers : Recovers ValueSpan.read ValueSpan.toJson :=
  Record.recovers _ (by simp) (by simp [Fields.names]) fun
    | ⟨value, start, stop⟩ => Record.Takes.map (.field recovers_text rfl) ValueSpan.mk
        |>.seq (.field recovers_uint32 rfl)
        |>.seq (.field recovers_uint32 rfl)

/-! ## Module records -/

namespace Module

theorem ImportKind.recovers : Recovers ImportKind.read fun kind => .string kind.text :=
  recovers_oneOf fun kind => by cases kind <;> rfl

theorem SourceKind.recovers : Recovers SourceKind.read fun kind => .string kind.text :=
  recovers_oneOf fun kind => by cases kind <;> rfl

theorem ExportKind.recovers : Recovers ExportKind.read fun kind => .string kind.text :=
  recovers_oneOf fun kind => by cases kind <;> rfl

/-- Names are written alike, whatever kinds they are told apart by. -/
theorem Name.recovers {κ : Type} {read : Json.Reader κ} {kindText : κ → String}
    (h : Recovers read fun kind => .string (kindText kind)) (wanted : String) :
    Recovers ((Name.record read).read wanted) (Name.toJson kindText) :=
  Record.recovers _ (by simp) (by simp [Fields.names]) fun
    | ⟨kind, name, start, stop⟩ => Record.Takes.map (.field h rfl) Name.mk
        |>.seq (.nullable recovers_text rfl)
        |>.seq (.nullable recovers_uint32 rfl)
        |>.seq (.nullable recovers_uint32 rfl)

theorem ImportEntry.recovers : Recovers ImportEntry.read ImportEntry.toJson := by
  have hname := Name.recovers ImportKind.recovers "struct ImportName"
  exact Record.recovers _ (by simp [hname.scans, ValueSpan.recovers.scans])
    (by simp [Fields.names]) fun
    | ⟨importName, localName, isType⟩ => Record.Takes.map (.field hname rfl) ImportEntry.mk
        |>.seq (.field ValueSpan.recovers rfl)
        |>.seq (.field recovers_boolean rfl)

theorem StaticImport.recovers : Recovers StaticImport.read StaticImport.toJson :=
  Record.recovers _ (by simp [ValueSpan.recovers.scans, ImportEntry.recovers.scans])
    (by simp [Fields.names]) fun
    | ⟨start, stop, moduleRequest, entries⟩ =>
        Record.Takes.map (.field recovers_uint32 rfl) StaticImport.mk
          |>.seq (.field recovers_uint32 rfl)
          |>.seq (.field ValueSpan.recovers rfl)
          |>.seq (.field ImportEntry.recovers.listOf rfl)

theorem ExportEntry.recovers : Recovers ExportEntry.read ExportEntry.toJson := by
  have himport := Name.recovers SourceKind.recovers "struct ExportImportName"
  have hexport := Name.recovers ExportKind.recovers "struct ExportExportName"
  have hlocal := Name.recovers ExportKind.recovers "struct ExportLocalName"
  exact Record.recovers _
    (by simp [ValueSpan.recovers.scans, himport.scans, hexport.scans])
    (by simp [Fields.names]) fun
    | ⟨start, stop, moduleRequest, importName, exportName, localName, isType⟩ =>
        Record.Takes.map (.field recovers_uint32 rfl) ExportEntry.mk
          |>.seq (.field recovers_uint32 rfl)
          |>.seq (.nullable ValueSpan.recovers rfl)
          |>.seq (.field himport rfl)
          |>.seq (.field hexport rfl)
          |>.seq (.field hlocal rfl)
          |>.seq (.field recovers_boolean rfl)

theorem StaticExport.recovers : Recovers StaticExport.read StaticExport.toJson :=
  Record.recovers _ (by simp [ExportEntry.recovers.scans]) (by simp [Fields.names]) fun
    | ⟨start, stop, entries⟩ => Record.Takes.map (.field recovers_uint32 rfl) StaticExport.mk
        |>.seq (.field recovers_uint32 rfl)
        |>.seq (.field ExportEntry.recovers.listOf rfl)

theorem DynamicImport.recovers : Recovers DynamicImport.read DynamicImport.toJson :=
  Record.recovers _ (by simp [Span.recovers.scans]) (by simp [Fields.names]) fun
    | ⟨start, stop, moduleRequest⟩ =>
        Record.Takes.map (.field recovers_uint32 rfl) DynamicImport.mk
          |>.seq (.field recovers_uint32 rfl)
          |>.seq (.field Span.recovers rfl)

end Module

open ParseView.Module in
theorem ModuleRecord.recovers : Recovers ModuleRecord.read ModuleRecord.toJson :=
  Record.recovers _
    (by simp [StaticImport.recovers.scans, StaticExport.recovers.scans,
      DynamicImport.recovers.scans, Span.recovers.scans])
    (by simp [Fields.names]) fun
    | ⟨hasModuleSyntax, staticImports, staticExports, dynamicImports, importMetas⟩ =>
        Record.Takes.map (.field recovers_boolean rfl) ModuleRecord.mk
          |>.seq (.field StaticImport.recovers.listOf rfl)
          |>.seq (.field StaticExport.recovers.listOf rfl)
          |>.seq (.field DynamicImport.recovers.listOf rfl)
          |>.seq (.field Span.recovers.listOf rfl)

/-! ## Comments and diagnostics -/

theorem CommentKind.recovers : Recovers CommentKind.read fun kind => .string kind.text :=
  recovers_oneOf fun kind => by cases kind <;> rfl

theorem Comment.recovers : Recovers Comment.read Comment.toJson :=
  Record.recovers _ (by simp) (by simp [Fields.names]) fun
    | ⟨kind, value, start, stop⟩ => Record.Takes.map (.field CommentKind.recovers rfl) Comment.mk
        |>.seq (.field recovers_text rfl)
        |>.seq (.field recovers_uint32 rfl)
        |>.seq (.field recovers_uint32 rfl)

theorem Severity.recovers : Recovers Severity.read fun severity => .string severity.tag :=
  recovers_oneOf fun severity => by cases severity <;> rfl

theorem Label.recovers : Recovers Label.read Label.toJson :=
  Record.recovers _ (by simp) (by simp [Fields.names]) fun
    | ⟨message, start, stop⟩ => Record.Takes.map (.nullable recovers_text rfl) Label.mk
        |>.seq (.field recovers_uint32 rfl)
        |>.seq (.field recovers_uint32 rfl)

/-- Help that is absent is null and a code that is absent is left out, and both come back
as absent. -/
theorem Diagnostic.recovers : Recovers Diagnostic.read Diagnostic.toJson := by
  refine Record.recovers _ (by simp [Label.recovers.scans]) ?_ ?_
  · rintro ⟨severity, message, labels, help, code⟩
    cases code <;> simp [Fields.names, Json.Value.present]
  · rintro ⟨severity, message, labels, help, code⟩
    refine Record.Takes.map (.field Severity.recovers rfl) Diagnostic.mk
      |>.seq (.field recovers_text rfl)
      |>.seq (.defaulted Label.recovers.listOf rfl)
      |>.seq (.nullable recovers_text rfl)
      |>.seq (.defaulted_present recovers_text ?_)
    cases code <;> rfl

/-! ## Options and configurations -/

theorem Goal.recovers : Recovers Goal.read fun goal => .string goal.text :=
  recovers_oneOf fun goal => by cases goal <;> rfl

theorem Language.recovers : Recovers Language.read fun language => .string language.text :=
  recovers_oneOf fun language => by cases language <;> rfl

theorem TreeForm.recovers : Recovers TreeForm.read fun form => .string form.text :=
  recovers_oneOf fun form => by cases form <;> rfl

namespace ParserDefaults

theorem takes (defaults : ParserDefaults) : record.Takes defaults.toFields defaults :=
  Record.Takes.map (.nullable Goal.recovers rfl) ParserDefaults.mk
    |>.seq (.nullable Language.recovers rfl)
    |>.seq (.nullable TreeForm.recovers rfl)
    |>.seq (.nullable recovers_boolean rfl)
    |>.seq (.nullable recovers_boolean rfl)
    |>.seq (.nullable recovers_boolean rfl)

theorem scansFields (defaults : ParserDefaults) : ScansFields defaults.toFields := by
  simp [toFields]

theorem recovers : Recovers ParserDefaults.read ParserDefaults.toJson :=
  Record.recovers _ scansFields (by simp [Fields.names, toFields]) takes

/-- The names of the settings are not those of the file and its source. -/
theorem name_ne {spec : Json.FieldSpec} (h : spec ∈ record.fields) :
    spec.name ≠ "filename" ∧ spec.name ≠ "sourceText" := by
  have hname : spec.name ∈ record.fields.map (·.name) := List.mem_map.mpr ⟨spec, h, rfl⟩
  have hall : ∀ name ∈ record.fields.map (·.name), name ≠ "filename" ∧ name ≠ "sourceText" := by
    decide
  exact hall spec.name hname

end ParserDefaults

/-- The settings stand behind the file and its source in one object. -/
theorem ParseOptions.recovers : Recovers ParseOptions.read ParseOptions.toJson := by
  refine Record.recovers _ ?_ ?_ ?_
  · exact fun options => by simp [options.settings.scansFields]
  · simp [Fields.names, ParserDefaults.toFields]
  · rintro ⟨fileName, source, settings⟩
    refine Record.Takes.map (.field recovers_text rfl) ParseOptions.mk
      |>.seq (.field recovers_text rfl)
      |>.seq (settings.takes.of_same fun spec hspec => ?_)
    obtain ⟨hfile, hsource⟩ := ParserDefaults.name_ne hspec
    rw [Fields.get?, if_neg hfile.symm, Fields.get?, if_neg hsource.symm]

theorem SourceMap.Defaults.recovers : Recovers Defaults.read Defaults.toJson :=
  Record.recovers _ (by simp) (by simp [Fields.names]) fun
    | ⟨includeContent, everyChar⟩ => Record.Takes.map (.nullable recovers_boolean rfl) Defaults.mk
        |>.seq (.nullable recovers_boolean rfl)

/-- Any of the three sections may be left out. -/
theorem Configuration.recovers : Recovers Configuration.read Configuration.toJson := by
  refine Record.recovers _
    (by simp [ParserDefaults.recovers.scans, SourceMap.Defaults.recovers.scans]) ?_ ?_
  · rintro ⟨schema, parser, sourceMap⟩
    cases schema <;> cases parser <;> cases sourceMap <;>
      simp [Fields.names, Json.Value.present]
  · rintro ⟨schema, parser, sourceMap⟩
    cases schema <;> cases parser <;> cases sourceMap <;>
      exact Record.Takes.map (.nullable_present recovers_text rfl) Configuration.mk
        |>.seq (.nullable_present ParserDefaults.recovers rfl)
        |>.seq (.nullable_present SourceMap.Defaults.recovers rfl)

/-- Every record that travels as a document is read as it was written, whatever its
texts, offsets and absent fields are and however many entries it has. -/
theorem records_round_trip :
    RoundTrips ModuleRecord.read ModuleRecord.toJson ∧
      RoundTrips Comment.readAll Comment.allToJson ∧
      RoundTrips Diagnostic.readAll Diagnostic.allToJson ∧
      RoundTrips ParseOptions.read ParseOptions.toJson ∧
      RoundTrips Configuration.read Configuration.toJson := by
  refine ⟨ModuleRecord.recovers.roundTrips, ?_, ?_, ParseOptions.recovers.roundTrips,
    Configuration.recovers.roundTrips⟩
  · exact Comment.recovers.listOf.roundTrips
  · exact Diagnostic.recovers.listOf.roundTrips

end ParseView
