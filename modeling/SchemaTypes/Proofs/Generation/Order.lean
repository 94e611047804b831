import SchemaTypes.Proofs.Build.Components
import SchemaTypes.Proofs.Generation.Findings
import SchemaTypes.Proofs.Imports

/-! # The order of the schemas

Component schemas are built one after the other with one context, and each may take a description
over from any other. Even so the order in which they stand in a document matters to nothing but the
order of the declarations and findings that it has: what each schema brings is the same, and so are
the imports.
-/

namespace SchemaTypes

open SchemaTypes.Json

def Finding.isUnder (key : String) (finding : Finding) : Bool :=
  (Reference.place key).isPrefixOf finding.pointer

/-- A named type has a declaration in any style. -/
theorem DeclarationOptions.declaration?_isSome (options : DeclarationOptions) {tree : TypeTree}
    (named : tree.name.isSome) : (options.declaration? tree).isSome := by
  rw [declaration?, Option.isSome_map, body?]
  have asAlias : tree.aliasDeclaration?.isSome := by
    rw [TypeTree.aliasDeclaration?, Option.isSome_map]
    exact named
  rcases tree with ⟨attributes, kind⟩
  cases kind with
  | interface properties required index =>
    simp only [TypeTree.kind, TypeTree.interfaceDeclaration?]
    split
    · rw [Option.isSome_map]
      exact named
    · exact asAlias
  | enumeration values ofStrings =>
    simp only [TypeTree.kind, TypeTree.enumDeclaration?]
    split
    · rw [Option.isSome_map]
      exact named
    · exact asAlias
  | _ => exact asAlias

namespace Builder

theorem buildAll_used (builder : Builder) (schemas : Fields) :
    (builder.buildAll schemas).2.used =
      (schemas.flatMap fun entry =>
        (builder.rootTree (some entry.1) (some entry.2)).customs).eraseDups := by
  rw [buildAll, roots_yields]
  exact Context.foldl_record_empty _

theorem pointer_of_mem_findings {builder : Builder} {schema : Schema} {place : Pointer}
    {finding : Finding} (mem : finding ∈ builder.findings schema place) :
    place <+: finding.pointer := by
  rw [findings_visits, List.mem_flatMap] at mem
  obtain ⟨visit, visited, own⟩ := mem
  obtain ⟨rest, same⟩ := Schema.exists_of_mem_visits visit visited
  have pointer : finding.pointer = visit.1 := by
    rw [ownFindings] at own
    split at own
    · split at own
      · rw [List.mem_singleton.mp own]
      · cases own
    · cases own
  exact ⟨rest, by rw [pointer, same]⟩

theorem findings_filter (builder : Builder) (schema : Schema) (name key : String) :
    (builder.findings schema (Reference.place name)).filter (Finding.isUnder key) =
      if name = key then builder.findings schema (Reference.place name) else [] := by
  split
  · next same =>
    rw [List.filter_eq_self]
    intro finding mem
    exact List.isPrefixOf_iff_prefix.mpr (same ▸ pointer_of_mem_findings mem)
  · next different =>
    rw [List.filter_eq_nil_iff]
    intro finding mem here
    obtain ⟨rest, shape⟩ := pointer_of_mem_findings mem
    obtain ⟨further, shape'⟩ := List.isPrefixOf_iff_prefix.mp here
    rw [← shape] at shape'
    simp only [Reference.place, List.cons_append, List.cons.injEq, true_and] at shape'
    exact different shape'.1.symm

/-- What is found in one of many schemas is what is found in it by itself. -/
theorem findings_isUnder (builder : Builder) {schemas : Fields}
    (names : (schemas.map (·.1)).Nodup) (key : String) :
    (builder.buildAll schemas).2.findings.filter (Finding.isUnder key) =
      (Fields.get? key schemas).elim [] fun schema =>
        builder.findings schema (Reference.place key) := by
  rw [buildAll_findings, List.filter_flatMap]
  induction schemas with
  | nil => rfl
  | cons entry rest ih =>
    rcases entry with ⟨name, schema⟩
    rw [List.map_cons, List.nodup_cons] at names
    rw [List.flatMap_cons, ih names.2, findings_filter, Fields.get?]
    split
    · next same =>
      have alone : Fields.get? key rest = none := by
        rw [Option.eq_none_iff_forall_not_mem]
        intro other found
        exact names.1 (same ▸ List.mem_map_of_mem (Fields.mem_of_get? found))
      rw [alone, same]
      exact List.append_nil _
    · rw [List.nil_append]

end Builder

/-- What stands in front of the declarations of a file: the imports, and a blank line if there are
declarations behind them. -/
def importBlock (imports declarations : List String) : String :=
  String.join (imports.map fun statement => statement ++ "\n") ++
    if !imports.isEmpty && !declarations.isEmpty then "\n" else ""

namespace Settings

def declaration (settings : Settings) (builder : Builder) (entry : String × Schema) : String :=
  (settings.declarations.declaration? (builder.rootTree (some entry.1) (some entry.2))).getD ""

def declared (settings : Settings) (document : Document) : List String :=
  (Builder.buildAll ⟨settings.affixes, document.schemas⟩ document.schemas).1.filterMap
    settings.declarations.declaration?

/-- Every component is declared, at its place among the others. -/
theorem declared_eq (settings : Settings) (document : Document) :
    settings.declared document =
      document.schemas.map (settings.declaration ⟨settings.affixes, document.schemas⟩) := by
  rw [declared, Builder.buildAll_trees, List.filterMap_map,
    List.filterMap_eq_map_iff_forall_eq_some]
  intro entry _
  have named : (Builder.rootTree ⟨settings.affixes, document.schemas⟩ (some entry.1)
      (some entry.2)).name.isSome := by
    rw [Builder.rootTree_name]
    rfl
  obtain ⟨text, found⟩ :=
    Option.isSome_iff_exists.mp (settings.declarations.declaration?_isSome named)
  rw [Function.comp_apply, declaration, found, Option.getD_some]

theorem generate_text (settings : Settings) (document : Document) :
    (settings.generate document).text =
      endingLine (importBlock (settings.generate document).imports (settings.declared document) ++
        "\n\n".intercalate (settings.declared document)) := by
  have empty : (settings.declared document).isEmpty =
      (Builder.buildAll ⟨settings.affixes, document.schemas⟩ document.schemas).1.isEmpty := by
    rw [declared_eq, Builder.buildAll_trees, List.isEmpty_map, List.isEmpty_map]
  rw [importBlock, empty, declared, generate]
  generalize Builder.buildAll _ _ = built
  rfl

section Reordered

variable {document other : Document} (distinct : (document.schemas.map (·.1)).Nodup)
  (perm : document.schemas.Perm other.schemas) (settings : Settings)
include distinct perm

/-- A component may as well be declared with the components in another order. -/
theorem declared_of_perm :
    settings.declared document =
      document.schemas.map (settings.declaration ⟨settings.affixes, other.schemas⟩) := by
  have alike := Builder.alike_of_perm settings.affixes perm distinct
  rw [declared_eq]
  refine List.map_congr_left fun entry _ => ?_
  rw [declaration, alike.rootTree, declaration]

theorem mem_used_of_perm (name : String) :
    name ∈ (settings.generate document).used ↔ name ∈ (settings.generate other).used := by
  have alike := Builder.alike_of_perm settings.affixes perm distinct
  rw [show (settings.generate document).used = _ from Builder.buildAll_used _ _,
    show (settings.generate other).used = _ from Builder.buildAll_used _ _,
    List.mem_eraseDups, List.mem_eraseDups]
  simp only [alike.rootTree]
  exact (perm.flatMap_right _).mem_iff

/-- What is found in a component does not depend on any other. -/
theorem findings_of_perm (key : String) :
    (settings.generate document).findings.filter (Finding.isUnder key) =
      (Fields.get? key other.schemas).elim [] fun schema =>
        Builder.findings ⟨settings.affixes, other.schemas⟩ schema (Reference.place key) := by
  rw [show (settings.generate document).findings.filter _ = _ from
    Builder.findings_isUnder _ distinct key, Fields.get?_perm perm distinct key]
  simp only [Builder.findings_visits]

end Reordered

/-- Component schemas in another order have the same declarations, each at the place of its schema,
and use the same names. The imports and all that stands in front of the declarations are the same,
and so is what is found in each schema; nothing is found elsewhere. -/
theorem order_permutes (settings : Settings) {document other : Document}
    (distinct : (document.schemas.map (·.1)).Nodup)
    (perm : document.schemas.Perm other.schemas) :
    let first := settings.generate document
    let second := settings.generate other
    let declared := settings.declared document
    let reordered := settings.declared other
    let block := importBlock first.imports declared
    declared.length = document.schemas.length ∧ reordered.length = other.schemas.length ∧
      (document.schemas.zip declared).Perm (other.schemas.zip reordered) ∧
    (∀ name, name ∈ first.used ↔ name ∈ second.used) ∧
    first.imports = second.imports ∧
    first.text = endingLine (block ++ "\n\n".intercalate declared) ∧
    second.text = endingLine (block ++ "\n\n".intercalate reordered) ∧
    (∀ key, first.findings.filter (Finding.isUnder key) =
      second.findings.filter (Finding.isUnder key)) ∧
    second.findings = other.schemas.flatMap fun entry =>
      first.findings.filter (Finding.isUnder entry.1) := by
  intro first second declared reordered block
  have distinct' : (other.schemas.map (·.1)).Nodup := (perm.map (·.1)).nodup_iff.mp distinct
  have isDeclared : declared = document.schemas.map
      (settings.declaration ⟨settings.affixes, other.schemas⟩) :=
    declared_of_perm distinct perm settings
  have isReordered : reordered = other.schemas.map
      (settings.declaration ⟨settings.affixes, other.schemas⟩) := settings.declared_eq other
  have used := mem_used_of_perm distinct perm settings
  have imports : first.imports = second.imports := settings.imports.resolve_congr used
  refine ⟨?_, ?_, ?_, used, imports, settings.generate_text document, ?_, fun key => ?_, ?_⟩
  · rw [isDeclared, List.length_map]
  · rw [isReordered, List.length_map]
  · rw [isDeclared, isReordered, ← List.map_prod_left_eq_zip, ← List.map_prod_left_eq_zip]
    exact perm.map _
  · have empty : declared.isEmpty = reordered.isEmpty := by
      rw [isDeclared, isReordered, List.isEmpty_map, List.isEmpty_map, perm.isEmpty_eq]
    rw [show block = importBlock first.imports declared from rfl, imports, importBlock, empty]
    exact settings.generate_text other
  · calc first.findings.filter (Finding.isUnder key)
      _ = (Fields.get? key other.schemas).elim [] fun schema =>
          Builder.findings ⟨settings.affixes, other.schemas⟩ schema (Reference.place key) :=
        findings_of_perm distinct perm settings key
      _ = second.findings.filter (Finding.isUnder key) :=
        (findings_of_perm distinct' (.refl _) settings key).symm
  · refine (Builder.buildAll_findings _ other.schemas).trans ?_
    refine List.flatMap_congr fun entry mem => ?_
    rw [findings_of_perm distinct perm, Fields.get?_of_mem distinct' mem]
    rfl

/-- A component with a description, in front of one that takes the description over and behind
it. -/
theorem order_permutes_description :
    let pet : Schema := .object [("description", .string "A pet."),
      ("properties", .object [("name", .null)]),
      ("oneOf", .array [.object [("x-ts-type", .string "Dayjs")]])]
    let owner : Schema := .object [("properties", .object
      [("pet", .object [("$ref", .string "#/components/schemas/Pet")]),
        ("worth", .object [("x-ts-type", .string "Big")])])]
    let document (schemas : Fields) := Document.ofValue
      (.object [("components", .object [("schemas", .object schemas)])])
    let settings : Settings :=
      { imports := [("Dayjs", "import Dayjs from 'dayjs';"), ("Big", "import Big from 'big';")] }
    let front := document [("Pet", pet), ("Owner", owner)]
    let behind := document [("Owner", owner), ("Pet", pet)]
    let text := "export type Owner = \x7b\n  /** A pet. */\n  pet?: Pet;\n  worth?: Big;\n\x7d;"
    (front.schemas.map (·.1)).Nodup ∧ front.schemas.Perm behind.schemas ∧
    (settings.declared front)[1]? = some text ∧
    (("Owner", owner), text) ∈ behind.schemas.zip (settings.declared behind) ∧
    "Dayjs" ∈ (settings.generate behind).used ∧
    (settings.generate behind).imports = ["import Big from 'big';", "import Dayjs from 'dayjs';"] ∧
    (settings.generate behind).findings.filter (Finding.isUnder "Pet") =
      [⟨["components", "schemas", "Pet"], .oneOf⟩] := by
  intro pet owner document settings front behind text
  have distinct : (front.schemas.map (·.1)).Nodup := by decide
  have perm : front.schemas.Perm behind.schemas := .swap _ _ _
  have isDeclared : settings.declared front =
      ["/** A pet. */\nexport type Pet = Dayjs;", text] := by decide +kernel
  have isUsed : "Dayjs" ∈ (settings.generate front).used := by decide +kernel
  obtain ⟨-, -, declared, used, imports, -, -, found, -⟩ :=
    settings.order_permutes distinct perm
  refine ⟨distinct, perm, by rw [isDeclared]; rfl, ?_, (used "Dayjs").mp isUsed, ?_, ?_⟩
  · rw [← declared.mem_iff, isDeclared]
    exact List.mem_cons_of_mem _ (List.mem_singleton.mpr rfl)
  · rw [← imports]
    decide +kernel
  · rw [← found "Pet"]
    decide +kernel

end Settings

end SchemaTypes
