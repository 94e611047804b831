import SchemaTypes.Generation.Basic
import SchemaTypes.Proofs.Build.Parts
import SchemaTypes.Proofs.Build.Places
import SchemaTypes.Proofs.Schema.Nullability

/-! # Types do not depend on the spelling of nullability

Whether nodes say that they are nullable by the flag or by a list of types makes no difference to
what is built from them, nor to what is generated.
-/

namespace SchemaTypes

open SchemaTypes.Json

/-- What a build comes to has its own spelling in the respelled schema. -/
theorem Schema.HasAt.respelled {schema node : Schema} {way : List Step}
    (there : schema.HasAt way node) (spelling : Spelling) :
    (schema.respelled spelling).HasAt way (node.respelled (way.foldl Spelling.at spelling)) := by
  induction way generalizing schema spelling with
  | nil =>
    cases there
    rfl
  | cons step way ih =>
    obtain ⟨part, isPart, inside⟩ := there
    refine ⟨part.respelled (spelling.at step), ?_, ih inside _⟩
    rw [Schema.reading_respelled, Reading.parts_mapParts]
    exact List.mem_map.mpr ⟨_, isPart, rfl⟩

theorem Spelling.foldl_at (spelling : Spelling) (way : List Step) (place : Pointer) :
    way.foldl Spelling.at spelling place = spelling (way.flatMap Step.pointer ++ place) := by
  induction way generalizing spelling with
  | nil => rfl
  | cons step way ih =>
    rw [List.foldl_cons, ih, Spelling.at, List.flatMap_cons, List.append_assoc]

namespace Builder

def respelled (spelling : Spelling) (builder : Builder) : Builder :=
  ⟨builder.affixes, Schema.entriesRespelled spelling builder.components⟩

variable (builder : Builder) (spelling below : Spelling)

theorem get?_entriesRespelled (name : String) (entries : Fields) :
    Fields.get? name (Schema.entriesRespelled spelling entries) =
      (Fields.get? name entries).map (Schema.respelled (spelling.below name)) := by
  rw [Schema.entriesRespelled_eq]
  exact Fields.get?_map (fun name => Schema.respelled (spelling.below name)) name entries

theorem reference_respelled {schema : Schema} {target : String}
    (isReference : schema.target? = some target) :
    (builder.respelled spelling).reference (schema.respelled below) target =
      builder.reference schema target := by
  -- Of a component nothing is asked but the description.
  have inherited (key : String) :
      (Fields.get? key (builder.respelled spelling).components).bind Schema.description? =
        (Fields.get? key builder.components).bind Schema.description? := by
    rw [respelled, get?_entriesRespelled]
    cases Fields.get? key builder.components with
    | none => rfl
    | some component => exact Schema.description?_respelled component
  rw [reference, reference, Schema.description?_respelled, Schema.nullable_respelled isReference]
  simp only [inherited]
  rfl

theorem annotated_respelled (schema : Schema) (kind : Kind TypeTree) :
    annotated (schema.respelled spelling) kind = annotated schema kind := by
  rw [annotated.eq_def, annotated.eq_def, Schema.description?_respelled,
    Schema.isNullable_respelled]

theorem combined_respelled (schema : Schema) (combinator : Combinator) (members : List TypeTree) :
    combined (schema.respelled spelling) combinator members =
      combined schema combinator members := by
  have same : discriminator? (schema.respelled spelling) = discriminator? schema := by
    rw [discriminator?, Schema.get?_respelled_data (by decide) (by decide) (by decide),
      discriminator?]
  cases combinator <;> simp only [combined, same]

/-- A tree is the same for every spelling of its schema and of the components. -/
theorem tree_respelled (schema : Schema) :
    (builder.respelled spelling).tree (schema.respelled below) = builder.tree schema := by
  -- A part has its own spelling, so the induction is over all spellings at once.
  induction schema using Schema.inductionOnParts generalizing below with
  | node schema parts =>
    have trees : Reading.SameTrees (builder.respelled spelling).tree builder.tree
        (schema.reading.mapParts fun step => Schema.respelled (below.at step)) schema.reading :=
      Reading.sameTrees_mapParts fun part isPart => parts part isPart _
    rw [tree_eq, tree_eq builder, assemble, assemble, Schema.reading_respelled]
    cases read : schema.reading with
    | reference target =>
      exact reference_respelled builder spelling below (Schema.reading_reference read)
    | custom text => exact annotated_respelled below schema (.custom text)
    | combination combinator members =>
      rw [read] at trees
      simp only [Reading.mapParts, trees.2, combined_respelled, annotated_respelled]
    | enumeration values =>
      have same : enumeration (schema.respelled below) values = enumeration schema values := by
        rw [enumeration, enumeration, Schema.typeName?_respelled]
      simp only [Reading.mapParts, same, annotated_respelled]
    | object properties index =>
      rw [read] at trees
      simp only [Reading.mapParts, trees.1, trees.2, Schema.required_respelled,
        annotated_respelled]
    | array items =>
      rw [read] at trees
      have item : (items.map (Schema.respelled (below.at .item))).elim .unknown
          (builder.respelled spelling).tree = items.elim .unknown builder.tree := trees
      simp only [Reading.mapParts, item, annotated_respelled]
    | scalar =>
      have same : scalar (schema.respelled below) = scalar schema := by
        rw [scalar, scalar, Schema.typeName?_respelled, Schema.format?_respelled]
      simp only [Reading.mapParts, same, annotated_respelled]

theorem findings_respelled (schema : Schema) (place : Pointer) :
    (builder.respelled spelling).findings (schema.respelled below) place =
      builder.findings schema place := by
  induction schema using Schema.inductionOnParts generalizing below place with
  | node schema parts =>
    have own : ownFindings (schema.respelled below) place = ownFindings schema place := by
      rw [ownFindings, ownFindings, Schema.reading_respelled, Schema.properties?_respelled]
      cases schema.reading <;> simp only [Reading.mapParts, Option.isSome_map]
    rw [findings_eq, findings_eq builder, own, Schema.reading_respelled, Reading.parts_mapParts,
      List.flatMap_map]
    congr 1
    exact List.flatMap_congr fun part isPart => parts part isPart _ _

theorem rootTree_respelled (name : String) (schema : Schema) :
    (builder.respelled spelling).rootTree (some name) (some (schema.respelled below)) =
      builder.rootTree (some name) (some schema) :=
  congrArg (TypeTree.named (builder.affixes.typeName name))
    (builder.tree_respelled spelling below schema)

/-- The types of a map of schemas are the same in every spelling, and so is what they use and
find. -/
theorem buildAll_respelled (schemas : Fields) :
    (builder.respelled spelling).buildAll (Schema.entriesRespelled below schemas) =
      builder.buildAll schemas := by
  rw [buildAll, buildAll, roots_yields, roots_yields, Schema.entriesRespelled_eq]
  simp only [List.map_map, List.flatMap_map, Function.comp_def, rootTree_respelled,
    findings_respelled]

end Builder

/-- Nodes with the flag can be spelled with a list of types, each in either order or not at all, and
the same is built and generated; every node that a build comes to and that is to have a list has
it. -/
theorem respelled_generates_same (spelling : Spelling) (schemas : Fields) :
    let respelled := Schema.entriesRespelled spelling schemas
    (∀ affixes : Affixes, Builder.buildAll ⟨affixes, respelled⟩ respelled =
      Builder.buildAll ⟨affixes, schemas⟩ schemas) ∧
    (∀ (settings : Settings) (document other : Document), document.schemas = schemas →
      other.schemas = respelled → settings.generate other = settings.generate document) ∧
    ∀ (key name : String) (schema node : Schema) (way : List Step) (place : NullPlace),
      (key, schema) ∈ schemas → schema.HasAt way node → node.flaggedType? = some name →
      spelling (key :: way.flatMap Step.pointer) = some place →
      ∃ root spelled : Schema, (key, root) ∈ respelled ∧ root.HasAt way spelled ∧
        spelled.get? "type" = some (.array (place.types name)) ∧
        spelled.get? "nullable" = none := by
  intro respelled
  have built (affixes : Affixes) : Builder.buildAll ⟨affixes, respelled⟩ respelled =
      Builder.buildAll ⟨affixes, schemas⟩ schemas :=
    Builder.buildAll_respelled ⟨affixes, schemas⟩ spelling spelling schemas
  refine ⟨built, ?_, ?_⟩
  · rintro settings document other rfl same
    simp only [Settings.generate, same, built]
  · intro key name schema node way place isComponent there flagged wanted
    refine ⟨_, _, ?_, there.respelled (spelling.below key), Schema.respelled_flagged flagged ?_⟩
    · rw [show respelled = _ from Schema.entriesRespelled_eq spelling schemas]
      exact List.mem_map.mpr ⟨_, isComponent, rfl⟩
    · rw [Spelling.foldl_at, List.append_nil]
      exact wanted

/-- A property with an enumeration, and items of type `null` that stand where no build comes to;
another property keeps its flag. -/
theorem respelled_generates_same_mixed :
    let kind (nullable : Fields) : Schema := .object (("enum", .array [.string "cat"]) :: nullable)
    let flag : Fields := [("nullable", .bool true), ("type", .string "string")]
    let list : Fields := [("type", .array [.string "null", .string "string"])]
    let nothing : Schema := .object [("type", .string "null"), ("nullable", .bool true)]
    let pet (kind items : Schema) : Schema := .object
      [("properties", .object [("kind", kind), ("name", nothing)]), ("items", items)]
    let document (pet : Schema) := Document.ofValue
      (.object [("components", .object [("schemas", .object [("Pet", pet)])])])
    let flagged := document (pet (kind flag) nothing)
    let listed := document (pet (kind list)
      (.object [("type", .array [.string "null", .string "null"])]))
    let spelling : Spelling := fun place =>
      if place = ["Pet", "properties", "kind"] then some .first
      else if place = ["Pet", "items"] then some .last else none
    listed.schemas = Schema.entriesRespelled spelling flagged.schemas ∧
    (pet (kind flag) nothing).HasAt [.property "kind"] (kind flag) ∧
    (kind flag).flaggedType? = some "string" ∧
    spelling ["Pet", "properties", "kind"] = some .first ∧
    ({} : Settings).generate listed = ({} : Settings).generate flagged ∧
    (({} : Settings).generate flagged).text =
      "export type Pet = \x7b\n  kind?: \"cat\" | null;\n  name?: null;\n\x7d;\n" ∧
    ∃ root spelled : Schema, ("Pet", root) ∈ listed.schemas ∧
      root.HasAt [.property "kind"] spelled ∧
      spelled.get? "type" = some (.array [.string "null", .string "string"]) := by
  intro kind flag list nothing pet document flagged listed spelling
  have schemas : listed.schemas = Schema.entriesRespelled spelling flagged.schemas := by
    rfl
  have there : (pet (kind flag) nothing).HasAt [.property "kind"] (kind flag) :=
    ⟨_, List.mem_cons_self, rfl⟩
  have hasFlag : (kind flag).flaggedType? = some "string" := by decide
  have wanted : spelling ["Pet", "properties", "kind"] = some .first := by decide
  obtain ⟨-, same, lists⟩ := respelled_generates_same spelling flagged.schemas
  obtain ⟨root, spelled, isRoot, inside, isList, -⟩ :=
    lists "Pet" "string" _ _ _ .first List.mem_cons_self there hasFlag wanted
  exact ⟨schemas, there, hasFlag, wanted, same {} flagged listed rfl schemas, by decide +kernel,
    root, spelled, schemas ▸ isRoot, inside, isList⟩

end SchemaTypes
