import SchemaTypes.Proofs.Build.Parts
import SchemaTypes.Proofs.TypeTree.References

/-! # What a builder brings to its trees

Affixes and components reach a tree through its references alone. The components lend descriptions
to references and nothing else, whatever the references point at; the affixes are put around the
names of references and roots. What is used and found does not depend on either.
-/

namespace SchemaTypes

open SchemaTypes.Json

def Affixes.around (affixes : Affixes) (name : String) : String :=
  affixes.front ++ name ++ affixes.back

theorem Affixes.typeName_eq_around (affixes : Affixes) (raw : String) :
    affixes.typeName raw = affixes.around (Affixes.typeName ⟨"", ""⟩ raw) := by
  rw [typeName, around, typeName, String.empty_append, String.append_empty]

/-- A type with the affixes around its own name and the names of its references. -/
def TypeTree.affixed (affixes : Affixes) (tree : TypeTree) : TypeTree :=
  (tree.mapReferences (fun attributes => attributes) affixes.around).mapAttributes
    fun attributes => { attributes with name := attributes.name.map affixes.around }

theorem TypeTree.affixed_named (affixes : Affixes) (tree : TypeTree) (name : String) :
    (tree.named name).affixed affixes =
      (tree.mapReferences (fun attributes => attributes) affixes.around).named
        (affixes.around name) := by
  rw [affixed, mapReferences_named _ _ fun _ => rfl]
  cases tree.mapReferences (fun attributes => attributes) affixes.around
  rfl

def TypeTree.referencesUndescribed (tree : TypeTree) : TypeTree :=
  tree.mapReferences (fun attributes => { attributes with description := none }) fun name => name

namespace Builder

section References

variable {builder other : Builder} {f f' : Attributes → Attributes} {g g' : String → String}

theorem mapReferences_annotated (schema : Schema) {kind : Kind TypeTree}
    (notReference : ∀ name, kind ≠ .reference name) :
    (annotated schema kind).mapReferences f g =
      annotated schema (kind.map (TypeTree.mapReferences f g)) := by
  rw [annotated.eq_def, TypeTree.mapReferences_node _ _ notReference, annotated.eq_def]
  cases kind with
  | primitive primitive => cases primitive <;> rfl
  | _ => rfl

theorem combined_map (schema : Schema) (combinator : Combinator) (members : List TypeTree)
    (h : TypeTree → TypeTree) :
    (combined schema combinator members).map h = combined schema combinator (members.map h) := by
  cases combinator <;> rfl

/-- Unless the node is a reference itself, its references are those of its parts. -/
theorem mapReferences_assemble (tree : Schema → TypeTree) {schema : Schema}
    (noTarget : schema.target? = none) :
    (builder.assemble tree schema).mapReferences f g =
      other.assemble (fun part => (tree part).mapReferences f g) schema := by
  rw [assemble, assemble]
  cases read : schema.reading with
  | reference target =>
    rw [Schema.reading_reference read] at noTarget
    cases noTarget
  | custom text => exact mapReferences_annotated schema (by simp)
  | combination combinator members =>
    have notReference : ∀ name,
        combined schema combinator (members.map tree) ≠ .reference name := by
      cases combinator <;> simp [combined]
    dsimp only
    rw [mapReferences_annotated schema notReference, combined_map, List.map_map]
    rfl
  | enumeration values => exact mapReferences_annotated schema (by simp [enumeration])
  | object properties index =>
    dsimp only
    rw [mapReferences_annotated schema (by simp), Kind.map, List.map_map]
    rcases index with _ | _ | part <;> rfl
  | array items =>
    dsimp only
    rw [mapReferences_annotated schema (by simp), Kind.map]
    cases items <;> rfl
  | scalar =>
    dsimp only
    rcases scalar_cases schema with ⟨_, isLeaf⟩ | ⟨_, isLeaf⟩ <;>
      rw [isLeaf, mapReferences_annotated schema (by simp), Kind.map]

/-- Two builders whose references are the same after some change give the same trees after it. -/
theorem tree_mapReferences
    (references : ∀ schema target, (builder.reference schema target).mapReferences f g =
      (other.reference schema target).mapReferences f' g') (schema : Schema) :
    (builder.tree schema).mapReferences f g = (other.tree schema).mapReferences f' g' := by
  -- Only a node with a target asks its builder for anything; all others are made of their parts.
  induction schema using Schema.inductionOnParts with
  | node schema parts =>
    rw [tree_eq, tree_eq other]
    cases isReference : schema.target? with
    | none =>
      rw [mapReferences_assemble _ isReference, mapReferences_assemble _ isReference]
      exact builder.assemble_congr parts
    | some target =>
      have read : schema.reading = .reference target := by rw [Schema.reading, isReference]
      rw [assemble, assemble, read]
      exact references schema target

/-- Builders with the same references give the same trees. -/
theorem tree_of_references
    (references : ∀ schema target, builder.reference schema target = other.reference schema target)
    (schema : Schema) : builder.tree schema = other.tree schema := by
  have same := tree_mapReferences (f := fun attributes => attributes) (g := fun name => name)
    (fun schema target => congrArg _ (references schema target)) schema
  rwa [TypeTree.mapReferences_id, TypeTree.mapReferences_id] at same

end References

/-- What is found is found in the schema alone. -/
theorem findings_other (builder other : Builder) : builder.findings = other.findings := by
  funext schema
  induction schema using Schema.inductionOnParts with
  | node schema parts =>
    funext place
    rw [findings_eq, findings_eq other]
    congr 1
    exact List.flatMap_congr fun part isPart => congrFun (parts part isPart) _

/-! ## Components -/

section Components

variable (affixes : Affixes) (components others : Fields)

theorem tree_referencesUndescribed (schema : Schema) :
    (tree ⟨affixes, components⟩ schema).referencesUndescribed =
      (tree ⟨affixes, others⟩ schema).referencesUndescribed := by
  refine tree_mapReferences (fun schema target => ?_) schema
  rw [reference, reference, TypeTree.mapReferences_reference, TypeTree.mapReferences_reference]

theorem rootTree_referencesUndescribed (name : Option String) (schema : Option Schema) :
    (rootTree ⟨affixes, components⟩ name schema).referencesUndescribed =
      (rootTree ⟨affixes, others⟩ name schema).referencesUndescribed := by
  have unnamed : (schema.elim .unknown (tree ⟨affixes, components⟩)).referencesUndescribed =
      (schema.elim .unknown (tree ⟨affixes, others⟩)).referencesUndescribed := by
    cases schema with
    | none => rfl
    | some schema => exact tree_referencesUndescribed affixes components others schema
  cases name with
  | none => exact unnamed
  | some name =>
    have named (tree : TypeTree) (name : String) :
        (tree.named name).referencesUndescribed = tree.referencesUndescribed.named name :=
      TypeTree.mapReferences_named _ name (fun _ => rfl) tree
    rw [rootTree, rootTree, Option.elim_some, Option.elim_some, named, named, unnamed]

/-- Components that lend the same descriptions give the same references. -/
theorem reference_of_descriptions
    (lent : ∀ key, (Fields.get? key components).bind Schema.description? =
      (Fields.get? key others).bind Schema.description?) (schema : Schema) (target : String) :
    reference ⟨affixes, components⟩ schema target = reference ⟨affixes, others⟩ schema target := by
  simp only [reference, lent]

end Components

/-- A schema is built with the same uses and findings whatever the components are, and into types
that differ at most in what is said of references. These types have the same nodes otherwise, so
that no type grows by what a reference points at. If under each key both maps of components have the
same description, or none, the types are the same. A builder without components has the empty
map. -/
theorem references_not_followed (affixes : Affixes) (components others : Fields)
    (name : Option String) (schema : Option Schema) (before : Context) :
    let (tree, after) := (root ⟨affixes, components⟩ name schema).run before
    let (other, otherwise) := (root ⟨affixes, others⟩ name schema).run before
    after = otherwise ∧ tree.referencesUndescribed = other.referencesUndescribed ∧
      tree.nodes.length = other.nodes.length ∧
      ((∀ key, (Fields.get? key components).bind Schema.description? =
        (Fields.get? key others).bind Schema.description?) → tree = other) := by
  rw [root_yields, root_yields]
  have shape := rootTree_referencesUndescribed affixes components others name schema
  have customs := congrArg TypeTree.customs shape
  rw [TypeTree.referencesUndescribed, TypeTree.customs_mapReferences,
    TypeTree.referencesUndescribed, TypeTree.customs_mapReferences] at customs
  have size := congrArg (List.length ∘ TypeTree.nodes) shape
  rw [Function.comp_apply, TypeTree.referencesUndescribed, TypeTree.length_nodes_mapReferences,
    Function.comp_apply, TypeTree.referencesUndescribed,
    TypeTree.length_nodes_mapReferences] at size
  refine ⟨?_, shape, size, fun lent => ?_⟩
  · rw [customs, findings_other ⟨affixes, components⟩ ⟨affixes, others⟩]
  · have same := funext (tree_of_references
      (reference_of_descriptions affixes components others lent))
    rw [rootTree, rootTree, same]

/-- A node that refers to itself, and components in which a text stands under its name. -/
theorem references_not_followed_cyclic :
    let lent : String × Value := ("description", .string "A node.")
    let next : Schema := .object [("$ref", .string "#/components/schemas/Node")]
    let node : Schema := .object [lent, ("properties", .object [("next", next)])]
    let text : Schema := .object [("type", .string "string"), lent]
    let cyclic : Builder := ⟨⟨"", ""⟩, [("Node", node)]⟩
    let plain : Builder := ⟨⟨"", ""⟩, [("Node", text)]⟩
    (∀ key, (Fields.get? key cyclic.components).bind Schema.description? =
      (Fields.get? key plain.components).bind Schema.description?) ∧
    ((cyclic.root (some "Node") (some node)).run {}).1.nodes.length = 2 ∧
    ((cyclic.root (some "Node") (some node)).run {}).1 =
      ((plain.root (some "Node") (some node)).run {}).1 := by
  intro lent next node text cyclic plain
  have same : ∀ key, (Fields.get? key cyclic.components).bind Schema.description? =
      (Fields.get? key plain.components).bind Schema.description? := by
    intro key
    by_cases isNode : "Node" = key
    · subst isNode
      rfl
    · simp [cyclic, plain, Fields.get?, isNode]
  obtain ⟨-, -, -, trees⟩ := references_not_followed ⟨"", ""⟩ [("Node", node)] [("Node", text)]
    (some "Node") (some node) {}
  exact ⟨same, by decide +kernel, trees same⟩

/-! ## Affixes -/

theorem tree_affixed (affixes : Affixes) (components : Fields) (schema : Schema) :
    tree ⟨affixes, components⟩ schema =
      (tree ⟨⟨"", ""⟩, components⟩ schema).mapReferences (fun attributes => attributes)
        affixes.around := by
  have references (schema : Schema) (target : String) :
      (reference ⟨affixes, components⟩ schema target).mapReferences (fun attributes => attributes)
          (fun name => name) =
        (reference ⟨⟨"", ""⟩, components⟩ schema target).mapReferences
          (fun attributes => attributes) affixes.around := by
    rw [reference, reference, TypeTree.mapReferences_reference, TypeTree.mapReferences_reference,
      ← affixes.typeName_eq_around]
  have same := tree_mapReferences references schema
  rwa [TypeTree.mapReferences_id] at same

theorem rootTree_affixed (affixes : Affixes) (components : Fields) (key : String)
    (schema : Schema) :
    rootTree ⟨affixes, components⟩ (some key) (some schema) =
      (rootTree ⟨⟨"", ""⟩, components⟩ (some key) (some schema)).affixed affixes := by
  rw [rootTree, rootTree, Option.elim_some, Option.elim_some, Option.elim_some, Option.elim_some,
    tree_affixed, TypeTree.affixed_named, affixes.typeName_eq_around]

/-- With affixes the same types are built as without, but for the names of roots and references,
which have the affixes around them; and the same is used and found. -/
theorem buildAll_affixed (affixes : Affixes) (components schemas : Fields) :
    let (trees, context) := buildAll ⟨⟨"", ""⟩, components⟩ schemas
    buildAll ⟨affixes, components⟩ schemas = (trees.map (TypeTree.affixed affixes), context) := by
  rw [buildAll, buildAll, roots_yields, roots_yields]
  have customs (tree : TypeTree) : (tree.affixed affixes).customs = tree.customs := by
    rw [TypeTree.affixed, TypeTree.customs_mapAttributes, TypeTree.customs_mapReferences]
  simp only [rootTree_affixed affixes, customs, List.map_map,
    findings_other ⟨affixes, components⟩ ⟨⟨"", ""⟩, components⟩]
  rfl

end Builder

end SchemaTypes
