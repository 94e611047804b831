import SchemaTypes.Proofs.Build.Parts
import SchemaTypes.Proofs.Json.Pointer
import SchemaTypes.Proofs.Schema.Description
import SchemaTypes.Proofs.TypeTree.Description

/-! # Descriptions go from schemas to types

A builder takes descriptions over and asks nothing else of them: without those of the schemas it
gives the same types without theirs, uses the same custom types and finds the same.
-/

namespace SchemaTypes

open SchemaTypes.Json

namespace Builder

def undescribed (builder : Builder) : Builder :=
  ⟨builder.affixes, Schema.entriesUndescribed builder.components⟩

theorem get?_entriesUndescribed (name : String) (entries : Fields) :
    Fields.get? name (Schema.entriesUndescribed entries) =
      (Fields.get? name entries).map Schema.undescribed := by
  rw [Schema.entriesUndescribed_eq]
  exact Fields.get?_map (fun _ => Schema.undescribed) name entries

theorem reference_undescribed (builder : Builder) (schema : Schema) (target : String) :
    builder.undescribed.reference schema.undescribed target =
      (builder.reference schema target).undescribed := by
  -- Components are looked up for nothing but their descriptions.
  have inherited (key : String) :
      (Fields.get? key builder.undescribed.components).bind Schema.description? = none := by
    rw [undescribed, get?_entriesUndescribed]
    cases Fields.get? key builder.components with
    | none => rfl
    | some component => exact Schema.description?_undescribed component
  have nullable : schema.undescribed.get? "nullable" = schema.get? "nullable" :=
    Schema.get?_undescribed_data (by decide) (by decide) schema
  rw [reference, reference, TypeTree.undescribed_node, Schema.description?_undescribed, nullable]
  simp only [inherited, Option.bind_fun_none]
  rfl

theorem scalar_undescribed (schema : Schema) : scalar schema.undescribed = scalar schema := by
  rw [scalar, Schema.typeName?_undescribed, Schema.format?_undescribed, scalar]

/-- A node that has only a type name, or not even that, has no parts. -/
theorem scalar_result_map (schema : Schema) (f : TypeTree → TypeTree) :
    (scalar schema).result.map f = (scalar schema).result := by
  rcases scalar_cases schema with ⟨_, isLeaf⟩ | ⟨_, isLeaf⟩ <;> rw [isLeaf, Kind.map]

theorem discriminator?_undescribed (schema : Schema) :
    discriminator? schema.undescribed = discriminator? schema := by
  rw [discriminator?, Schema.get?_undescribed_data (by decide) (by decide), discriminator?]

theorem annotated_undescribed (schema : Schema) (kind : Kind TypeTree) :
    annotated schema.undescribed (kind.map TypeTree.undescribed) =
      (annotated schema kind).undescribed := by
  rw [annotated.eq_def, annotated.eq_def, TypeTree.undescribed_node,
    Schema.description?_undescribed, Schema.isNullable_undescribed]
  cases kind with
  | primitive primitive => cases primitive <;> rfl
  | _ => rfl

theorem combined_undescribed (schema : Schema) (combinator : Combinator)
    (members : List TypeTree) :
    combined schema.undescribed combinator (members.map TypeTree.undescribed) =
      (combined schema combinator members).map TypeTree.undescribed := by
  cases combinator <;> simp only [combined, discriminator?_undescribed, Kind.map]

/-- Without the descriptions of its schema, a tree is the same without its own. -/
theorem tree_undescribed (builder : Builder) (schema : Schema) :
    builder.undescribed.tree schema.undescribed = (builder.tree schema).undescribed := by
  induction schema using Schema.inductionOnParts with
  | node schema parts =>
    have trees : Reading.SameTrees builder.undescribed.tree
        (fun schema => (builder.tree schema).undescribed)
        (schema.reading.map Schema.undescribed) schema.reading := Reading.sameTrees_map parts
    rw [tree_eq, tree_eq builder, assemble, assemble, Schema.reading_undescribed]
    cases read : schema.reading with
    | reference target => exact reference_undescribed builder schema target
    | custom text => exact annotated_undescribed schema (.custom text)
    | combination combinator members =>
      rw [read] at trees
      have members' : (members.map fun member => (builder.tree member).undescribed) =
          (members.map builder.tree).map TypeTree.undescribed := by rw [List.map_map]; rfl
      simp only [Reading.map, trees.2, members', combined_undescribed, annotated_undescribed]
    | enumeration values =>
      have same : enumeration schema.undescribed values = enumeration schema values := by
        rw [enumeration, enumeration, Schema.typeName?_undescribed]
      simp only [Reading.map, same]
      exact annotated_undescribed schema (enumeration schema values)
    | object properties index =>
      rw [read] at trees
      have properties' : (properties.map fun entry =>
            (entry.1, (builder.tree entry.2).undescribed)) =
          (properties.map fun entry => (entry.1, builder.tree entry.2)).map
            fun entry => (entry.1, entry.2.undescribed) := by rw [List.map_map]; rfl
      have index' : (index.map fun part => part.elim .unknown fun schema =>
            (builder.tree schema).undescribed) =
          (index.map fun part => part.elim .unknown builder.tree).map TypeTree.undescribed := by
        rcases index with _ | _ | part <;> rfl
      simp only [Reading.map, trees.1, trees.2, properties', index', Schema.required_undescribed]
      exact annotated_undescribed schema (.interface _ _ _)
    | array items =>
      rw [read] at trees
      have item : (items.map Schema.undescribed).elim .unknown builder.undescribed.tree =
          (items.elim .unknown builder.tree).undescribed := trees.trans (by cases items <;> rfl)
      simp only [Reading.map, item]
      exact annotated_undescribed schema (.array _)
    | scalar =>
      simp only [Reading.map, scalar_undescribed]
      rw [← annotated_undescribed, scalar_result_map]

theorem ownFindings_undescribed (schema : Schema) (place : Pointer) :
    ownFindings schema.undescribed place = ownFindings schema place := by
  rw [ownFindings, ownFindings, Schema.reading_undescribed, Schema.properties?_undescribed]
  cases schema.reading <;> simp only [Reading.map, Option.isSome_map]

theorem findings_undescribed (builder : Builder) (schema : Schema) (place : Pointer) :
    builder.undescribed.findings schema.undescribed place = builder.findings schema place := by
  induction schema using Schema.inductionOnParts generalizing place with
  | node schema parts =>
    rw [findings_eq, findings_eq builder, ownFindings_undescribed, Schema.reading_undescribed,
      Reading.parts_map, List.flatMap_map]
    congr 1
    exact List.flatMap_congr fun part isPart => parts part isPart _

theorem rootTree_undescribed (builder : Builder) (name : String) (schema : Schema) :
    builder.undescribed.rootTree (some name) (some schema.undescribed) =
      (builder.rootTree (some name) (some schema)).undescribed := by
  change (builder.undescribed.tree schema.undescribed).named _ =
    ((builder.tree schema).named _).undescribed
  rw [tree_undescribed]
  rcases builder.tree schema with ⟨attributes, kind⟩
  rfl

/-- Without the descriptions of their schemas, trees are the same without theirs, and nothing else
changes. -/
theorem buildAll_undescribed (builder : Builder) (schemas : Fields) :
    builder.undescribed.buildAll (Schema.entriesUndescribed schemas) =
      ((builder.buildAll schemas).1.map TypeTree.undescribed, (builder.buildAll schemas).2) := by
  rw [buildAll, buildAll, roots_yields, roots_yields, Schema.entriesUndescribed_eq]
  simp only [List.map_map, List.flatMap_map, Function.comp_def, rootTree_undescribed,
    TypeTree.customs_undescribed, findings_undescribed]

end Builder

end SchemaTypes
