import SchemaTypes.Proofs.Generation.Run

/-! # Strict and lenient runs

Whether a run is strict matters at one place, where the version of the document is refused. There a
strict run ends and a lenient one goes on with a warning, as if nothing had been refused. Everything
else is the same in both, whatever the files are and however the document was come by.
-/

namespace SchemaTypes

open SchemaTypes.Files SchemaTypes.Files.Tree SchemaTypes.Json

/-! ## Failures that are no refusals -/

theorem prepareOutput_failure {files : Tree} {path : String} {failure : Failure}
    (failed : (files.run (prepareOutput path)).1 = .error failure) :
    ∃ place fault, failure = .output place fault := by
  rw [prepareOutput, run_bind] at failed
  split at failed
  · cases failed
    exact ⟨_, _, rfl⟩
  · cases failed

theorem publish_failure {files : Tree} {path text : String} {failure : Failure}
    (failed : (files.run (publish path text)).1 = .error failure) :
    ∃ place fault, failure = .output place fault := by
  rw [publish, run_bind] at failed
  split at failed
  · next prepared =>
    cases failed
    exact prepareOutput_failure prepared
  · rw [run_bind] at failed
    split at failed
    · cases failed
      exact ⟨_, _, rfl⟩
    · cases failed

namespace Document

theorem parse_failure {text source : String} {failure : Failure}
    (failed : parse text source = .error failure) : ∃ fault, failure = .document source fault := by
  rw [parse] at failed
  split at failed <;> split at failed
  · cases failed
  · exact ⟨_, (Except.error.inj failed).symm⟩
  · cases failed
  · exact ⟨_, (Except.error.inj failed).symm⟩

theorem load_failure {files : Tree} {source : String} {failure : Failure}
    (failed : (files.run (load source)).1 = .error failure) :
    ∃ fault, failure = .document source fault := by
  rw [load] at failed
  split at failed
  · exact ⟨_, (Except.error.inj failed).symm⟩
  · rw [run_bind] at failed
    split at failed
    · exact ⟨_, (Except.error.inj failed).symm⟩
    · exact parse_failure failed

theorem parse_source {text source : String} {document : Document}
    (parsed : parse text source = .ok document) : document.source = source := by
  rw [parse] at parsed
  split at parsed <;> split at parsed
  · rw [← Except.ok.inj parsed]
  · cases parsed
  · rw [← Except.ok.inj parsed]
  · cases parsed

theorem load_source {files : Tree} {source : String} {document : Document}
    (loaded : (files.run (load source)).1 = .ok document) : document.source = source := by
  obtain ⟨content, -, parsed⟩ := of_load loaded
  exact parse_source parsed

/-- What is not a mapping has no component schemas. -/
theorem schemas_of_not_mapping {document : Document} (noFields : document.root.fields? = none) :
    document.schemas = [] := by
  rw [schemas]
  cases found : document.root with
  | object fields =>
    rw [found] at noFields
    cases noFields
  | _ => rfl

end Document

theorem Settings.paths_failure {settings : Settings} {failure : Failure}
    (failed : settings.paths = .error failure) : failure = .noInput ∨ failure = .noOutput := by
  rw [paths] at failed
  split at failed
  · exact .inl (Except.error.inj failed).symm
  · split at failed
    · exact .inr (Except.error.inj failed).symm
    · cases failed

/-! ## What becomes of a document -/

namespace Settings

/-- A text is written after warnings: with what writing leads to, it is what the run has done. -/
theorem run_deliver_of_draft {settings : Settings} {document : Document} {warnings : List String}
    {text : String} (drafted : settings.draft document = ⟨warnings, .ok text⟩) (files : Tree)
    (output : String) :
    files.run (settings.deliver output document) =
      (⟨warnings, (files.run (publish output text)).1.map fun () => text⟩,
        (files.run (publish output text)).2) := by
  rw [run_deliver, drafted]

/-- A run has gone on where the version of the document was refused. Its warnings are the refusal
and then what was found, and otherwise it has written the types of the document. -/
structure Continues (settings : Settings) (files : Tree) (output : String) (document : Document)
    (refusal : Failure) (run : Run) (after : Tree) : Prop where
  warnings : run.warnings =
    (refusal.message ++ "; continuing") ::
      (settings.generate document).findings.map Finding.message
  result : run.result =
    (files.run (publish output (settings.generate document).text)).1.map
      fun () => (settings.generate document).text
  files : after = (files.run (publish output (settings.generate document).text)).2

/-- How a lenient run stands to the strict one for the same document: it does not refuse a version.
If the strict run does, the lenient one goes on; if not, they are the same. -/
def Agree (settings : Settings) (files : Tree) (output : String) (document : Document)
    (strict lenient : Run × Tree) : Prop :=
  (∀ source fault, lenient.1.result ≠ .error (.version source fault)) ∧
  match strict.1.result with
  | .error (.version source fault) =>
    strict = (.stopped (.version source fault), files) ∧
      source = document.source ∧ document.versionFault? = some fault ∧
      settings.Continues files output document (.version source fault) lenient.1 lenient.2
  | _ => lenient = strict

theorem generate_strictValidation (settings : Settings) (strict : Bool) (document : Document) :
    ({ settings with strictValidation := strict } : Settings).generate document =
      settings.generate document := rfl

/-- Writing a text does not end in a refusal. -/
theorem published_ne_version {files : Tree} {output text : String} (source : String)
    (fault : VersionFault) :
    ((files.run (publish output text)).1.map fun () => text) ≠ .error (.version source fault) := by
  cases published : (files.run (publish output text)).1 with
  | ok done => exact nofun
  | error failure =>
    obtain ⟨place, cause, rfl⟩ := publish_failure published
    exact nofun

/-- What a strict and a lenient run do with the same document. -/
theorem deliver_agree (settings : Settings) (files : Tree) (output : String)
    (document : Document) :
    settings.Agree files output document
      (files.run (({ settings with strictValidation := true } : Settings).deliver output document))
      (files.run
        (({ settings with strictValidation := false } : Settings).deliver output document)) := by
  have generated (strict : Bool) := settings.generate_strictValidation strict document
  cases fault? : document.versionFault? with
  | none =>
    have drafted (strict : Bool) :
        ({ settings with strictValidation := strict } : Settings).draft document =
          ⟨(settings.generate document).findings.map Finding.message,
            .ok (settings.generate document).text⟩ := by
      rw [draft, Document.validate, fault?, generated]
    rw [run_deliver_of_draft (drafted true), run_deliver_of_draft (drafted false)]
    refine ⟨published_ne_version, ?_⟩
    split
    · next refused => exact absurd refused (published_ne_version _ _)
    · rfl
  | some fault =>
    have strict : files.run (({ settings with strictValidation := true } : Settings).deliver
        output document) = (.stopped (.version document.source fault), files) := by
      rw [run_deliver, draft, Document.validate, fault?]
      rfl
    have drafted : ({ settings with strictValidation := false } : Settings).draft document =
        ⟨((Failure.version document.source fault).message ++ "; continuing") ::
          (settings.generate document).findings.map Finding.message,
            .ok (settings.generate document).text⟩ := by
      rw [draft, Document.validate, fault?, generated]
      rfl
    rw [strict, run_deliver_of_draft drafted]
    exact ⟨published_ne_version, rfl, rfl, fault?, rfl, rfl, rfl⟩

/-- A document without component schemas has an empty line for its types. -/
theorem generate_of_no_schemas (settings : Settings) {document : Document}
    (none : document.schemas = []) : settings.generate document = ⟨"\n", [], [], []⟩ := by
  rw [generate, none]
  rfl

/-- Before there is a document, a run does not depend on its being strict. -/
theorem run_stopped_or_delivers (settings : Settings) (files : Tree) :
    (∃ failure, (∀ source fault, failure ≠ .version source fault) ∧
      ∀ strict, files.run ({ settings with strictValidation := strict } : Settings).run =
        (.stopped failure, files)) ∨
    ∃ input output document, settings.paths = .ok (input, output) ∧
      (files.run (Document.load input)).1 = .ok document ∧
      ∀ strict, files.run ({ settings with strictValidation := strict } : Settings).run =
        files.run (({ settings with strictValidation := strict } : Settings).deliver output
          document) := by
  have samePaths (strict : Bool) :
      ({ settings with strictValidation := strict } : Settings).paths = settings.paths := rfl
  cases found : settings.paths with
  | error failure =>
    refine .inl ⟨failure, ?_, fun strict => by rw [run_run, samePaths, found]⟩
    rcases paths_failure found with rfl | rfl <;> exact nofun
  | ok paths =>
    obtain ⟨input, output⟩ := paths
    cases loaded : (files.run (Document.load input)).1 with
    | error failure =>
      refine .inl ⟨failure, ?_, fun strict => ?_⟩
      · obtain ⟨fault, rfl⟩ := Document.load_failure loaded
        exact nofun
      · rw [run_run, samePaths, found]
        simp only [loaded]
    | ok document =>
      refine .inr ⟨input, output, document, rfl, loaded, fun strict => ?_⟩
      rw [run_run, samePaths, found]
      simp only [loaded]

/-- A lenient run never refuses a version. If a strict run does, the lenient one has warned of that
and then of all that was found, in this order, and has tried to write the types of the document,
even if the document is not a mapping. In all other cases a strict and a lenient run are the same,
with their warnings, their texts or failures, and their files. The same holds for documents that
were not read from these files. -/
theorem lenient_follows_strict (settings : Settings) (files : Tree) :
    let strict : Settings := { settings with strictValidation := true }
    let lenient : Settings := { settings with strictValidation := false }
    let strictly := files.run strict.run
    let leniently := files.run lenient.run
    (∀ source fault, leniently.1.result ≠ .error (.version source fault)) ∧
    (match strictly.1.result with
    | .error (.version source fault) =>
      strictly = (.stopped (.version source fault), files) ∧
        ∃ output document, settings.paths = .ok (source, output) ∧
          (files.run (Document.load source)).1 = .ok document ∧
          document.versionFault? = some fault ∧
          settings.Continues files output document (.version source fault) leniently.1 leniently.2
    | _ => leniently = strictly) ∧
    (∀ output document, settings.Agree files output document
      (files.run (strict.deliver output document)) (files.run (lenient.deliver output document))) ∧
    ∀ document : Document, document.root.fields? = none →
      settings.generate document = ⟨"\n", [], [], []⟩ := by
  intro strict lenient strictly leniently
  have further : (∀ output document, settings.Agree files output document
        (files.run (strict.deliver output document))
        (files.run (lenient.deliver output document))) ∧
      ∀ document : Document, document.root.fields? = none →
        settings.generate document = ⟨"\n", [], [], []⟩ :=
    ⟨settings.deliver_agree files, fun document noFields =>
      settings.generate_of_no_schemas (Document.schemas_of_not_mapping noFields)⟩
  rcases settings.run_stopped_or_delivers files with
    ⟨failure, other, stopped⟩ | ⟨input, output, document, found, loaded, delivers⟩
  · have isStrict : strictly = (.stopped failure, files) := stopped true
    have isLenient : leniently = (.stopped failure, files) := stopped false
    rw [isStrict, isLenient]
    refine ⟨fun source fault same => other source fault (Except.error.inj same), ?_, further⟩
    split
    · next source fault refused => exact absurd (Except.error.inj refused) (other source fault)
    · rfl
  · have isStrict : strictly = files.run (strict.deliver output document) := delivers true
    have isLenient : leniently = files.run (lenient.deliver output document) := delivers false
    obtain ⟨never, agree⟩ : settings.Agree files output document
        (files.run (strict.deliver output document))
        (files.run (lenient.deliver output document)) :=
      settings.deliver_agree files output document
    rw [isStrict, isLenient]
    refine ⟨never, ?_, further⟩
    split at agree
    · next source fault refused =>
      obtain ⟨stopped, isSource, refusal, continues⟩ := agree
      rw [Document.load_source loaded] at isSource
      subst isSource
      exact ⟨stopped, output, document, found, loaded, refusal, continues⟩
    · exact agree

-- A list for a document, which is not a mapping, in a directory beside the one of the run.
example :
    let settings : Settings :=
      { input := some "../a", output := some "/b/c", strictValidation := false }
    let files : Tree :=
      { entries := [(["w"], .directory), (["a"], .file "[]".toUTF8)], workingDirectory := ["w"] }
    (files.run settings.run).1.warnings =
        ["invalid OpenAPI document: ../a: document root must be a mapping; continuing"] ∧
      ((files.run settings.run).2.read "/b/c").toOption = some "\n" := by
  decide +kernel

end Settings

end SchemaTypes
