import Mathlib.Data.List.Nodup
import SchemaTypes.Proofs.Build.Places
import SchemaTypes.Proofs.Schema.Reference

/-! # References and the declarations they mean

A reference to a component is built under the name that the component is declared under, because
both names are made from the key in the same way. It takes over the description of the component
where it has none of its own, and as a pointer it leads to the schema of the component.
-/

namespace SchemaTypes

open SchemaTypes.Json

namespace Builder

theorem root_result (builder : Builder) (name : Option String) (schema : Option Schema)
    (before : Context) :
    ((builder.root name schema).run before).1 = builder.rootTree name schema := by
  rw [root_yields]

theorem buildAll_trees (builder : Builder) (schemas : Fields) :
    (builder.buildAll schemas).1 =
      schemas.map fun entry => builder.rootTree (some entry.1) (some entry.2) := by
  rw [buildAll, roots_yields]

/-- A root is declared under the type name of its key. -/
theorem rootTree_name (builder : Builder) (key : String) (schema : Option Schema) :
    (builder.rootTree (some key) schema).name = some (builder.affixes.typeName key) := by
  rw [rootTree]
  cases schema.elim TypeTree.unknown builder.tree
  rfl

/-- Among roots with names of their own, the root of a key is the one that its name means. -/
theorem find?_declared (builder : Builder) {schemas : Fields}
    (names : (schemas.map fun entry => builder.affixes.typeName entry.1).Nodup)
    {key : String} {schema : Schema} (mem : (key, schema) ∈ schemas) :
    ((builder.buildAll schemas).1.find? fun root =>
      root.name == some (builder.affixes.typeName key)) =
        some (builder.rootTree (some key) (some schema)) := by
  rw [buildAll_trees]
  cases found : List.find? (fun root => root.name == some (builder.affixes.typeName key))
      (schemas.map fun entry => builder.rootTree (some entry.1) (some entry.2)) with
  | none =>
    have := List.find?_eq_none.mp found _ (List.mem_map_of_mem mem)
    simp [rootTree_name] at this
  | some root =>
    obtain ⟨other, otherMem, rfl⟩ := List.mem_map.mp (List.mem_of_find?_eq_some found)
    have same : builder.affixes.typeName other.1 = builder.affixes.typeName key := by
      simpa [rootTree_name] using List.find?_some found
    rw [List.inj_on_of_nodup_map names otherMem mem same]

/-- Naming a root leaves all else that is said of it and all that is below it. -/
theorem rootTree_hasAt (builder : Builder) (name : Option String) {schema inner : Schema}
    {way : List Step} (h : schema.HasAt way inner) :
    ∃ found, (builder.rootTree name (some schema)).HasAt way found ∧
      found.kind = (builder.tree inner).kind ∧
      found.description = (builder.tree inner).description ∧
      found.nullable = (builder.tree inner).nullable := by
  have place : (builder.tree schema).HasAt way (builder.tree inner) := tree_hasAt h
  cases name with
  | none => exact ⟨builder.tree inner, place, rfl, rfl, rfl⟩
  | some name =>
    cases way with
    | nil =>
      rw [Schema.HasAt] at h
      subst h
      refine ⟨_, rfl, ?_⟩
      rw [rootTree, Option.elim_some, Option.elim_some]
      cases builder.tree schema
      exact ⟨rfl, rfl, rfl⟩
    | cons step way =>
      exact ⟨builder.tree inner, (TypeTree.hasAt_mapAttributes _ _ _ _ _).mpr place, rfl, rfl, rfl⟩

/-- A node with a target is built as a reference. -/
theorem tree_of_target? (builder : Builder) {node : Schema} {target : String}
    (h : node.target? = some target) : builder.tree node = builder.reference node target := by
  have read : node.reading = .reference target := by rw [Schema.reading, h]
  rw [tree_eq, assemble, read]

/-- The description of a reference to a component is its own or else that of the component. -/
theorem reference_description (builder : Builder) (node : Schema) {target key : String}
    (h : Reference.component? target = some key) :
    (builder.reference node target).description =
      node.description?.or ((Fields.get? key builder.components).bind Schema.description?) := by
  rw [reference, h]
  rfl

/-- A reference to a component is built, wherever it stands, under the name that the component is
declared under, and leads to the component in the document. Whatever text has the form of such a
reference has the same name and the same target by every way of reading it. -/
theorem references_meet_declarations (affixes : Affixes) (schemas : Fields) :
    (∀ key, ∀ schema : Schema, key ≠ "" → Fields.get? key schemas = some schema →
      let target := Reference.toComponent key
      let builder : Builder := ⟨affixes, schemas⟩
      Reference.name target = key ∧ Reference.component? target = some key ∧
      (∀ name root way node before, Schema.HasAt root way node → node.target? = some target →
        ∃ found declared,
          ((builder.root name (some root)).run before).1.HasAt way found ∧
          found.kind = .reference declared ∧
          found.description = node.description?.or schema.description? ∧
          ∀ (i : Nat) entry, schemas[i]? = some (key, entry) →
            ((builder.buildAll schemas).1[i]?).bind TypeTree.name = some declared) ∧
      ∀ document : Document,
        document.root.at? ["components", "schemas"] = some (.object schemas) →
          document.resolve? target = some schema) ∧
    ∀ target key, Reference.component? target = some key →
      Reference.name target = key ∧
      ∀ document : Document, ∀ components,
        document.root.at? ["components", "schemas"] = some (.object components) →
          document.resolve? target = Fields.get? key document.schemas := by
  constructor
  · intro key schema nonempty declared target builder
    have component : Reference.component? target = some key :=
      Reference.component?_toComponent nonempty
    have name : Reference.name target = key := Reference.name_of_component? component
    refine ⟨name, component, ?_, ?_⟩
    · intro rootName root way node before inside targets
      rcases rootTree_hasAt builder rootName inside with ⟨found, there, kind, description, -⟩
      rw [tree_of_target? builder targets] at kind description
      refine ⟨found, affixes.typeName key, ?_, ?_, ?_, ?_⟩
      · rw [root_result]
        exact there
      · rw [kind, reference, name]
        rfl
      · rw [description, reference_description builder node component, declared]
        rfl
      · intro i entry place
        rw [buildAll_trees, List.getElem?_map, place]
        exact rootTree_name builder key (some entry)
    · intro document place
      rw [Document.resolve?_of_component? component place, declared]
  · intro target key component
    refine ⟨Reference.name_of_component? component, ?_⟩
    intro document components place
    rw [Document.resolve?_of_component? component place, Document.schemas, place]
    rfl

/-- A property that refers to a component with a slash and a tilde in its key. -/
theorem references_meet_declarations_escaped :
    let component : Schema := .object [("description", .string "Both ways.")]
    let part : Schema := .object [("$ref", .string "#/components/schemas/in~1out~01")]
    let user : Schema := .object [("properties", .object [("route", part)])]
    let schemas : Fields := [("User", user), ("in/out~1", component)]
    let builder : Builder := ⟨⟨"", "Dto"⟩, schemas⟩
    ∃ found declared,
      ((builder.root none (some user)).run {}).1.HasAt [.property "route"] found ∧
      found.kind = .reference declared ∧ found.description = some "Both ways." ∧
      ((builder.buildAll schemas).1[1]?).bind TypeTree.name = some declared := by
  intro component part user schemas builder
  obtain ⟨-, -, built, -⟩ :=
    (references_meet_declarations ⟨"", "Dto"⟩ schemas).1 "in/out~1" component (by decide) rfl
  have inside : Schema.HasAt user [.property "route"] part := by
    refine ⟨part, ?_, rfl⟩
    exact List.mem_singleton.mpr rfl
  obtain ⟨found, declared, there, kind, description, name⟩ :=
    built none user [.property "route"] part {} inside rfl
  exact ⟨found, declared, there, kind, description, name 1 component rfl⟩

end Builder

end SchemaTypes
