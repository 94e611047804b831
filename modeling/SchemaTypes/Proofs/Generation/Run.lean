import SchemaTypes.Generation.Run
import SchemaTypes.Proofs.Files.Tree

/-! # What a run leaves behind

A run that fails leaves every file as it was, because writing is the last thing that is done and
fails as a whole. A run that succeeds changes the one file that it is to write.
-/

namespace SchemaTypes

open SchemaTypes.Files SchemaTypes.Files.Tree

variable {before : Tree} {path text source : String}

/-! ## Documents -/

namespace Document

theorem looks_load (source : String) : Looks (load source) := by
  rw [load]
  split
  · exact looks_pure _
  · refine (looks_read source).bind fun found => ?_
    split
    · exact looks_pure _
    · exact looks_pure _

theorem of_load {document : Document} (loaded : (before.run (load source)).1 = .ok document) :
    ∃ content, before.read source = .ok content ∧ parse content source = .ok document := by
  rw [load] at loaded
  split at loaded
  · cases loaded
  · rw [run_bind, run_read] at loaded
    cases found : before.read source with
    | error fault =>
      rw [found] at loaded
      cases loaded
    | ok content =>
      rw [found] at loaded
      exact ⟨content, rfl, loaded⟩

end Document

/-! ## Writing -/

namespace Settings

variable {settings : Settings} {output : String} {document : Document}

/-- What is done with a document goes by its draft. -/
theorem run_deliver (files : Tree) :
    files.run (settings.deliver output document) =
      match (settings.draft document).result with
      | .error failure => (⟨(settings.draft document).warnings, .error failure⟩, files)
      | .ok text =>
        (⟨(settings.draft document).warnings,
          (files.run (publish output text)).1.map fun () => text⟩,
            (files.run (publish output text)).2) := by
  rw [deliver]
  cases (settings.draft document).result with
  | error failure => rfl
  | ok text => rfl

/-- A run is stopped before anything is written, or it delivers the document of its input. -/
theorem run_run (settings : Settings) (files : Tree) :
    files.run settings.run =
      match settings.paths with
      | .error failure => (.stopped failure, files)
      | .ok (input, output) =>
        match (files.run (Document.load input)).1 with
        | .error failure => (.stopped failure, files)
        | .ok document => files.run (settings.deliver output document) := by
  rw [run]
  cases settings.paths with
  | error failure => rfl
  | ok paths =>
    dsimp only
    rw [run_bind, (Document.looks_load paths.1).run_eq]
    cases (files.run (Document.load paths.1)).1 with
    | error failure => rfl
    | ok document => rfl

end Settings

end SchemaTypes
