import SchemaTypes.Proofs.Build.Names
import SchemaTypes.Proofs.Declaration.Lines
import SchemaTypes.Proofs.Generation.Order

/-! # The layout of the file

The file of a document that has components ends in one line feed. Without it, what lies between the
blank lines is the import statements, if there are any, and then the declarations of the components
in the order of the document, none of which has a blank line of its own.
-/

namespace SchemaTypes

open SchemaTypes.Json Text

/-- What stands between the blank lines of a file. -/
def fileBlocks (imports declarations : List String) : List String :=
  (if imports = [] then [] else ["\n".intercalate imports]) ++ declarations

section Imports

variable {imports declarations : List String}

theorem join_lines (nonempty : imports ≠ []) :
    String.join (imports.map fun statement => statement ++ "\n") =
      "\n".intercalate imports ++ "\n" := by
  induction imports with
  | nil => exact absurd rfl nonempty
  | cons statement rest ih =>
    rw [List.map_cons, String.join_cons]
    by_cases last : rest = []
    · rw [last, String.intercalate_singleton, List.map_nil, String.join_nil, String.append_empty]
    · rw [ih last, String.intercalate_cons_of_ne_nil last]
      simp only [String.append_assoc]

theorem importBlock_append (nonempty : declarations ≠ []) :
    importBlock imports declarations ++ "\n\n".intercalate declarations =
      "\n\n".intercalate (fileBlocks imports declarations) := by
  have behind : declarations.isEmpty = false := by simpa using nonempty
  rw [importBlock, fileBlocks, behind]
  by_cases none : imports = []
  · subst none
    rfl
  · have before : imports.isEmpty = false := by simpa using none
    rw [join_lines none, before, if_neg none, List.singleton_append,
      String.intercalate_cons_of_ne_nil nonempty, show "\n\n" = "\n" ++ "\n" from rfl]
    simp only [String.append_assoc]
    rfl

theorem lines_imports (nonempty : imports ≠ [])
    (whole : ∀ statement ∈ imports, '\n' ∉ statement.toList) :
    lines ("\n".intercalate imports).toList = imports.map String.toList := by
  rw [String.toList_intercalate]
  refine lines_intercalate (by simpa using nonempty) fun row mem => ?_
  obtain ⟨statement, isStatement, rfl⟩ := List.mem_map.mp mem
  exact whole statement isStatement

/-- Import statements on a line each have no blank line between them. -/
theorem isDense_imports (nonempty : imports ≠ [])
    (whole : ∀ statement ∈ imports, statement ≠ "" ∧ '\n' ∉ statement.toList) :
    "\n".intercalate imports ≠ "" ∧ IsDense ("\n".intercalate imports) := by
  have rows := lines_imports nonempty fun statement mem => (whole statement mem).2
  have noBlank : [] ∉ lines ("\n".intercalate imports).toList := by
    rw [rows, List.mem_map]
    rintro ⟨statement, mem, empty⟩
    exact (whole statement mem).1 (String.toList_eq_nil_iff.mp empty)
  refine ⟨fun empty => noBlank ?_, fun _ => noBlank⟩
  rw [empty]
  exact List.mem_singleton.mpr rfl

/-- No block of a file is empty, and none has a blank line in it. -/
theorem dense_of_mem_fileBlocks (imported : ∀ statement ∈ imports, statement ≠ "" ∧
      '\n' ∉ statement.toList) (declared : ∀ text ∈ declarations, text ≠ "" ∧ IsDense text)
    {text : String} (mem : text ∈ fileBlocks imports declarations) : text ≠ "" ∧ IsDense text := by
  rcases List.mem_append.mp mem with isImports | isDeclaration
  · split at isImports
    · cases isImports
    · next someImports =>
      rw [List.mem_singleton.mp isImports]
      exact isDense_imports someImports imported
  · exact declared text isDeclaration

end Imports

namespace Settings

variable {settings : Settings} {document : Document}

/-- Statements that are imported are not blank, and have no line feed if the given ones have
none. -/
theorem imports_whole {statement : String} {used : List String}
    (statements : ∀ entry ∈ settings.imports, '\n' ∉ entry.2.toList)
    (mem : statement ∈ settings.imports.resolve used) :
    statement ≠ "" ∧ '\n' ∉ statement.toList := by
  obtain ⟨nonempty, name, -, given, found, rfl⟩ := ImportTable.mem_resolve.mp mem
  have isGiven : (name, given) ∈ settings.imports := ImportTable.mem_of_get? found
  refine ⟨nonempty, fun inside => statements _ isGiven (mem_of_mem_trim ?_)⟩
  rwa [Text.trimmed, String.toList_ofList] at inside

section Declared

variable (front : '\n' ∉ settings.affixes.front.toList) (back : '\n' ∉ settings.affixes.back.toList)
  (customs : ∀ text ∈ (settings.generate document).used, '\n' ∉ text.toList)
  {entry : String × Schema} (mem : entry ∈ document.schemas)
include front back customs mem

/-- A component is declared under its type name, in lines of which none is blank. -/
theorem declaration_reads :
    let text := settings.declaration ⟨settings.affixes, document.schemas⟩ entry
    text ≠ "" ∧ IsDense text ∧ ∃ form content,
      DeclarationForm.read? (settings.affixes.typeName entry.1) text = some (form, content) := by
  set builder : Builder := ⟨settings.affixes, document.schemas⟩ with isBuilder
  set tree := builder.rootTree (some entry.1) (some entry.2) with isTree
  have named : tree.name = some (settings.affixes.typeName entry.1) := Builder.rootTree_name ..
  have names : tree.HasWholeNames := by
    refine Builder.hasWholeNames_rootTree front back entry.1 fun text isCustom => customs text ?_
    rw [show (settings.generate document).used = _ from Builder.buildAll_used _ _,
      List.mem_eraseDups, List.mem_flatMap]
    exact ⟨entry, mem, isCustom⟩
  have declared := settings.declarations.declaration?_eq named
  have whole := Affixes.newline_not_mem_typeName front back entry.1
  rw [declaration, ← isTree, declared, Option.getD_some]
  obtain ⟨nonempty, dense⟩ := settings.declarations.isDense_declaration named whole names declared
  exact ⟨nonempty, dense, _, _, DeclarationForm.read?_heading ..⟩

end Declared

/-- Every root has a declaration, whatever the settings. -/
theorem roots_declared (settings : Settings) (document : Document) :
    (Builder.buildAll ⟨settings.affixes, document.schemas⟩ document.schemas).1.map
      settings.declarations.declaration? = (settings.declared document).map some := by
  rw [declared_eq, Builder.buildAll_trees, List.map_map, List.map_map]
  refine List.map_congr_left fun entry _ => ?_
  have named := Builder.rootTree_name ⟨settings.affixes, document.schemas⟩ entry.1
    (some entry.2)
  rw [Function.comp_apply, Function.comp_apply, declaration,
    settings.declarations.declaration?_eq named, Option.getD_some]

/-- The file of a document with components, cut at its blank lines: the import statements on a line
each, if there are any, and for each component in order the declaration of its type under its
name. -/
theorem generate_blocks (settings : Settings) (document : Document)
    (nonempty : document.schemas ≠ []) (front : '\n' ∉ settings.affixes.front.toList)
    (back : '\n' ∉ settings.affixes.back.toList)
    (customs : ∀ text ∈ (settings.generate document).used, '\n' ∉ text.toList)
    (statements : ∀ entry ∈ settings.imports, '\n' ∉ entry.2.toList) :
    let file := settings.generate document
    let roots := (Builder.buildAll ⟨settings.affixes, document.schemas⟩ document.schemas).1
    ∃ body declared, file.text = body ++ "\n" ∧ body.toList.getLast? ≠ some '\n' ∧
      blocks body = fileBlocks file.imports declared ∧
      (file.imports ≠ [] →
        lines ("\n".intercalate file.imports).toList = file.imports.map String.toList) ∧
      roots.map settings.declarations.declaration? = declared.map some ∧
      List.Forall₂ (fun entry text => ∃ form content,
        DeclarationForm.read? (settings.affixes.typeName entry.1) text =
          some (form, content)) document.schemas declared ∧
      ∀ text ∈ declared, text ≠ "" ∧ [] ∉ lines text.toList := by
  intro file roots
  have imported : ∀ statement ∈ file.imports, statement ≠ "" ∧ '\n' ∉ statement.toList :=
    fun _ mem => imports_whole statements mem
  have isDeclared := settings.declared_eq document
  have reads := fun (entry : String × Schema) (mem : entry ∈ document.schemas) =>
    declaration_reads front back customs mem
  have declared : ∀ text ∈ settings.declared document, text ≠ "" ∧ IsDense text := by
    rw [isDeclared]
    intro text mem
    obtain ⟨entry, isEntry, rfl⟩ := List.mem_map.mp mem
    exact ⟨(reads entry isEntry).1, (reads entry isEntry).2.1⟩
  have someDeclared : settings.declared document ≠ [] := by
    rw [isDeclared]
    simpa using nonempty
  have someBlock : fileBlocks file.imports (settings.declared document) ≠ [] :=
    List.append_ne_nil_of_right_ne_nil _ someDeclared
  have dense : ∀ text ∈ fileBlocks file.imports (settings.declared document),
      text ≠ "" ∧ IsDense text := fun _ mem => dense_of_mem_fileBlocks imported declared mem
  -- The last block does not end in a line feed, so the file gets one of its own.
  obtain ⟨c, last, noBreak⟩ := getLast?_intercalate_blank someBlock dense
  refine ⟨"\n\n".intercalate (fileBlocks file.imports (settings.declared document)),
    settings.declared document, ?_, ?_, blocks_intercalate someBlock dense,
    fun someImports => lines_imports someImports fun statement mem => (imported statement mem).2,
    settings.roots_declared document, ?_, fun text mem => ?_⟩
  · rw [show file.text = _ from settings.generate_text document, importBlock_append someDeclared,
      endingLine, last, if_neg (by simpa using noBreak)]
  · rw [last]
    simpa using noBreak
  · rw [isDeclared, List.forall₂_map_right_iff, List.forall₂_same]
    exact fun entry mem => (reads entry mem).2.2
  · obtain ⟨notEmpty, noBlank⟩ := declared text mem
    exact ⟨notEmpty, noBlank (by simpa using notEmpty)⟩

/-- A key of two lines with a blank line between them, and an enumeration that `null` belongs to. -/
theorem generate_blocks_nested :
    let date : Schema := .object [("x-ts-type", .string "Dayjs")]
    let pet : Schema := .object [("description", .string "A pet.\n\nIt barks."),
      ("properties", .object
        [("born\n\n", date), ("home", .object [("properties", .object [("name", date)])])])]
    let kind : Schema :=
      .object [("enum", .array [.string "cat\n\n", .string "dog"]), ("nullable", .bool true)]
    let document := Document.ofValue (.object
      [("components", .object [("schemas", .object [("pet", pet), ("kind", kind)])])])
    let settings : Settings :=
      { affixes := ⟨"I", ""⟩, imports := [("Dayjs", "import Dayjs from 'dayjs';")],
        declarations := { style := .interface } }
    document.schemas ≠ [] ∧ '\n' ∉ settings.affixes.front.toList ∧
    '\n' ∉ settings.affixes.back.toList ∧
    (∀ text ∈ (settings.generate document).used, '\n' ∉ text.toList) ∧
    (∀ entry ∈ settings.imports, '\n' ∉ entry.2.toList) ∧
    ∃ body declared, (settings.generate document).text = body ++ "\n" ∧
      body.toList.getLast? ≠ some '\n' ∧
      blocks body = "import Dayjs from 'dayjs';" :: declared ∧ declared.length = 2 := by
  intro date pet kind document settings
  have components : document.schemas ≠ [] := nofun
  have front : '\n' ∉ settings.affixes.front.toList := by decide
  have back : '\n' ∉ settings.affixes.back.toList := by decide
  have used : (settings.generate document).used = ["Dayjs"] := by decide +kernel
  have customs : ∀ text ∈ (settings.generate document).used, '\n' ∉ text.toList := by
    rw [used]
    decide
  have statements : ∀ entry ∈ settings.imports, '\n' ∉ entry.2.toList := by decide
  have imports : (settings.generate document).imports = ["import Dayjs from 'dayjs';"] := by
    decide +kernel
  refine ⟨components, front, back, customs, statements, ?_⟩
  obtain ⟨body, declared, isText, last, parts, -, -, each, -⟩ :=
    settings.generate_blocks document components front back customs statements
  rw [imports] at parts
  exact ⟨body, declared, isText, last, parts, each.length_eq.symm⟩

end Settings

end SchemaTypes
