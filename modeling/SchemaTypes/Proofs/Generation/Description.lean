import SchemaTypes.Generation.Basic
import SchemaTypes.Proofs.Build.Description

/-! # Descriptions reach nothing but comments

A file for schemas with descriptions is the file for the same schemas without any, into which whole
lines have been put, each of them one comment. So two documents that differ in nothing but
descriptions have the same file but for such lines, and all else that is generated is the same.
-/

namespace SchemaTypes

open SchemaTypes.Json Text

namespace DeclarationOptions

open TypeTree

theorem annotated_body? (options : DeclarationOptions) (tree : TypeTree) :
    Option.Rel (fun plain full => plain ≠ "" ∧ Annotated plain full)
      (options.body? tree.undescribed) (options.body? tree) := by
  have asAlias := annotated_aliasDeclaration? tree
  have asInterface := annotated_interfaceDeclaration? tree
  have asEnum := annotated_enumDeclaration? tree
  rcases tree with ⟨attributes, kind⟩
  rw [body?, body?, nullable_undescribed]
  rw [undescribed_node] at *
  cases kind with
  | interface properties required index =>
    simp only [Kind.map, TypeTree.kind] at *
    split
    · exact asInterface
    · exact asAlias
  | enumeration values ofStrings =>
    simp only [Kind.map, TypeTree.kind] at *
    split
    · exact asEnum
    · exact asAlias
  | _ => exact asAlias

/-- A declaration under its comment is one without it behind a line feed. -/
theorem annotated_declaration? (options : DeclarationOptions) (tree : TypeTree) :
    Option.Rel (fun plain full => Annotated ("\n" ++ plain) ("\n" ++ full))
      (options.declaration? tree.undescribed) (options.declaration? tree) := by
  have bodies := options.annotated_body? tree
  rw [declaration?, declaration?, description_undescribed]
  generalize options.body? tree.undescribed = plain, options.body? tree = full at bodies
  cases bodies with
  | none => exact .none
  | @some plain full annotated =>
    obtain ⟨some, annotated⟩ := annotated
    have exported := (Annotated.refl (if options.exported then "export " else "")).append annotated
    have whole := exported.docComment (nofun : ∀ c ∈ "".toList, c = ' ') tree.description
      (by simp [some])
    have noComment : docComment "" none = "" := rfl
    rw [noComment]
    exact .some (by simpa only [String.append_assoc, String.empty_append] using whole)

theorem forall₂_filterMap {α β : Type} {related : β → β → Prop} {f g : α → Option β}
    (each : ∀ a, Option.Rel related (f a) (g a)) (as : List α) :
    List.Forall₂ related (as.filterMap f) (as.filterMap g) := by
  induction as with
  | nil => exact .nil
  | cons a as ih =>
    have here := each a
    rw [List.filterMap_cons, List.filterMap_cons]
    generalize f a = left, g a = right at here
    cases here with
    | none => exact ih
    | some related => exact .cons related ih

theorem annotated_endingLine {plain full : String}
    (annotated : Annotated ("\n" ++ plain) ("\n" ++ full)) :
    Annotated ("\n" ++ endingLine plain) ("\n" ++ endingLine full) := by
  have comments : Comments ('\n' :: plain.toList) ('\n' :: full.toList) := by
    rw [Annotated, String.toList_append, String.toList_append] at annotated
    exact annotated
  have last : full.toList.getLast? = plain.toList.getLast? := by
    by_cases none : plain.toList = []
    · rw [none, comments.eq_nil_iff_behind.mp none]
    · have some : full.toList ≠ [] := fun h => none (comments.eq_nil_iff_behind.mpr h)
      rw [← List.getLast?_append_of_ne_nil ['\n'] some,
        ← List.getLast?_append_of_ne_nil ['\n'] none]
      exact comments.getLast?
  rw [endingLine, endingLine, last]
  split
  · exact annotated
  · rw [← String.append_assoc, ← String.append_assoc]
    exact annotated.append (.refl "\n")

/-- What stands in front of the declarations is nothing or ends in a line feed. -/
theorem lead_endsLine (trees : List TypeTree) (imports : List String) :
    let header := String.join (imports.map fun statement => statement ++ "\n")
    let gap := if !imports.isEmpty && !trees.isEmpty then "\n" else ""
    header ++ gap = "" ∨ ∃ front, header ++ gap = front ++ "\n" := by
  intro header gap
  rcases imports.eq_nil_or_concat' with none | ⟨before, last, some⟩
  · refine .inl ?_
    simp only [header, gap, none]
    rfl
  · refine .inr ?_
    have ends : header =
        String.join (before.map fun statement => statement ++ "\n") ++ last ++ "\n" := by
      simp [header, some, String.append_assoc]
    simp only [gap]
    split
    · exact ⟨header, rfl⟩
    · exact ⟨_, by rw [String.append_empty, ends]⟩

/-- A file differs from the same file without descriptions by lines that are comments. -/
theorem commented_file (options : DeclarationOptions) (trees : List TypeTree)
    (imports : List String) :
    Commented (lines (options.file (trees.map undescribed) imports).toList)
      (lines (options.file trees imports).toList) := by
  have declarations := Annotated.intercalate "\n" "\n"
    (forall₂_filterMap options.annotated_declaration? trees)
  rw [show "\n" ++ "\n" = "\n\n" from rfl] at declarations
  have same : (trees.map undescribed).filterMap options.declaration? =
      trees.filterMap fun tree => options.declaration? tree.undescribed := List.filterMap_map
  rw [file, file, List.isEmpty_map, same]
  have lead := lead_endsLine trees imports
  dsimp only at lead ⊢
  generalize String.join (imports.map fun statement => statement ++ "\n") ++
    (if !imports.isEmpty && !trees.isEmpty then "\n" else "") = before at lead
  refine (annotated_endingLine ?_).commented
  rcases lead with none | ⟨front, lineEnd⟩
  · rw [none, String.empty_append, String.empty_append]
    exact declarations
  · have whole := (Annotated.refl ("\n" ++ front)).append declarations
    rw [lineEnd]
    simpa only [String.append_assoc] using whole

end DeclarationOptions

/-- The component schemas of two documents are the same but for the descriptions of schema nodes. -/
def Document.SameButDescriptions (document other : Document) : Prop :=
  Schema.entriesUndescribed document.schemas = Schema.entriesUndescribed other.schemas

def Document.undescribed (document : Document) : Document :=
  let schemas := Value.object (Schema.entriesUndescribed document.schemas)
  { document with root := .object [("components", .object [("schemas", schemas)])] }

namespace Settings

/-- The descriptions of a document show as comments and in nothing else. -/
theorem generate_undescribed (settings : Settings) (document : Document) :
    let full := settings.generate document
    let plain := settings.generate document.undescribed
    full.used = plain.used ∧ full.imports = plain.imports ∧ full.findings = plain.findings ∧
      Commented (lines plain.text.toList) (lines full.text.toList) := by
  have schemas : document.undescribed.schemas = Schema.entriesUndescribed document.schemas := rfl
  have built := Builder.buildAll_undescribed ⟨settings.affixes, document.schemas⟩ document.schemas
  rw [Builder.undescribed] at built
  simp only [generate, schemas, built]
  exact ⟨trivial, trivial, trivial, DeclarationOptions.commented_file _ _ _⟩

example :
    let schema : Schema := .object [("description", .string "Left.\n*/ Right."),
      ("properties", .object [("description", .object [("type", .string "string"),
        ("description", .string "/*")])])]
    let document := Document.ofValue
      (.object [("components", .object [("schemas", .object [("Pet", schema)])])])
    (({} : Settings).generate document).text =
      "/** Left. *\\/ Right. */\nexport type Pet = \x7b\n  /** /* */\n" ++
        "  description?: string;\n\x7d;\n" := by
  decide +kernel

/-- Documents that differ in descriptions only have the same results, and the same files without the
lines that start with a comment. The lines that descriptions add to a file are one comment each. -/
theorem descriptions_only_comment (settings : Settings) {document other : Document}
    (same : document.SameButDescriptions other) :
    let first := settings.generate document
    let second := settings.generate other
    first.used = second.used ∧ first.imports = second.imports ∧ first.findings = second.findings ∧
      ((lines first.text.toList).filter fun line => !startsComment line) =
        ((lines second.text.toList).filter fun line => !startsComment line) ∧
      Commented (lines (settings.generate document.undescribed).text.toList)
        (lines first.text.toList) := by
  intro first second
  obtain ⟨used, imports, findings, commented⟩ := settings.generate_undescribed document
  obtain ⟨used', imports', findings', commented'⟩ := settings.generate_undescribed other
  -- Without descriptions both are the same document, so there is one file to compare them with.
  have plain : settings.generate document.undescribed = settings.generate other.undescribed := by
    have schemas : document.undescribed.schemas = other.undescribed.schemas := same
    rw [generate, generate, schemas]
  rw [← plain] at used' imports' findings' commented'
  refine ⟨used.trans used'.symm, imports.trans imports'.symm, findings.trans findings'.symm, ?_,
    commented⟩
  rw [commented.filter, commented'.filter]

/-- A description of two lines, one of which closes comments, and none. -/
theorem descriptions_only_comment_closing :
    let described : Schema := .object [("description", .string "Left.\n*/ Right."),
      ("properties", .object [("description", .object [("type", .string "string"),
        ("description", .string "/*")])])]
    let silent : Schema := .object [("properties", .object [("description",
      .object [("type", .string "string")])])]
    let document (schema : Schema) := Document.ofValue
      (.object [("components", .object [("schemas", .object [("Pet", schema)])])])
    (document described).SameButDescriptions (document silent) ∧
    ((lines (({} : Settings).generate (document described)).text.toList).filter
        fun line => !startsComment line) =
      ((lines (({} : Settings).generate (document silent)).text.toList).filter
        fun line => !startsComment line) := by
  intro described silent document
  have same : (document described).SameButDescriptions (document silent) := rfl
  exact ⟨same, (Settings.descriptions_only_comment {} same).2.2.2.1⟩

end Settings

end SchemaTypes
