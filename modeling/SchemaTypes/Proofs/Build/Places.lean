import SchemaTypes.Proofs.Build.Accounting

/-! # Where nodes end up

Every node of a schema that a build comes to, however deep, has its tree at the corresponding place
of the tree that is built for the schema. So what holds of the tree of a node by itself holds of it
at every place at which it is used.
-/

namespace SchemaTypes

open SchemaTypes.Json

/-- A build of the first node comes to the second one by the steps of a way. -/
def Schema.HasAt : Schema → List Step → Schema → Prop
  | schema, [], inner => schema = inner
  | schema, step :: way, inner =>
    ∃ part, (step, part) ∈ schema.reading.parts ∧ Schema.HasAt part way inner

/-- Something holds of a node and of every node that a build of it comes to. -/
def Schema.Throughout (holds : Schema → Prop) (schema : Schema) : Prop :=
  ∀ way node, schema.HasAt way node → holds node

theorem Schema.throughout_iff {holds : Schema → Prop} {schema : Schema} :
    schema.Throughout holds ↔
      holds schema ∧ ∀ part ∈ schema.reading.parts, part.2.Throughout holds := by
  constructor
  · intro all
    refine ⟨all [] schema rfl, ?_⟩
    rintro ⟨step, part⟩ mem way node inside
    exact all (step :: way) node ⟨part, mem, inside⟩
  · rintro ⟨here, parts⟩ way node inside
    cases way with
    | nil =>
      cases inside
      exact here
    | cons step way =>
      rcases inside with ⟨part, mem, rest⟩
      exact parts (step, part) mem way node rest

theorem Schema.HasAt.trans {schema middle inner : Schema} {way further : List Step}
    (first : schema.HasAt way middle) (second : middle.HasAt further inner) :
    schema.HasAt (way ++ further) inner := by
  induction way generalizing schema with
  | nil =>
    cases first
    exact second
  | cons step way ih =>
    rcases first with ⟨part, mem, rest⟩
    exact ⟨part, mem, ih rest⟩

theorem Schema.Throughout.below {holds : Schema → Prop} {schema inner : Schema} {way : List Step}
    (all : schema.Throughout holds) (inside : schema.HasAt way inner) : inner.Throughout holds :=
  fun further node there => all (way ++ further) node (inside.trans there)

namespace TypeTree

def HasPart : TypeTree → Step → TypeTree → Prop
  | .node _ (.union members _), .member _ place, part => members[place]? = some part
  | .node _ (.intersection members), .member _ place, part => members[place]? = some part
  | .node _ (.interface properties _ _), .property name, part => (name, part) ∈ properties
  | .node _ (.interface _ _ index), .index, part => index = some part
  | .node _ (.array item), .item, part => item = part
  | _, _, _ => False

/-- A tree has another one at the end of a way. -/
def HasAt : TypeTree → List Step → TypeTree → Prop
  | tree, [], inner => tree = inner
  | tree, step :: way, inner => ∃ part, HasPart tree step part ∧ HasAt part way inner

theorem hasPart_mapAttributes (f : Attributes → Attributes) (tree part : TypeTree) (step : Step) :
    (tree.mapAttributes f).HasPart step part ↔ tree.HasPart step part := by
  rcases tree with ⟨attributes, kind⟩
  cases kind <;> cases step <;> rfl

/-- Below the top, places do not depend on what is said of the tree as a whole. -/
theorem hasAt_mapAttributes (f : Attributes → Attributes) (tree inner : TypeTree) (step : Step)
    (way : List Step) :
    (tree.mapAttributes f).HasAt (step :: way) inner ↔ tree.HasAt (step :: way) inner := by
  simp only [HasAt, hasPart_mapAttributes]

end TypeTree

namespace Builder

variable {builder : Builder}

theorem tree_hasPart {schema part : Schema} {step : Step}
    (h : (step, part) ∈ schema.reading.parts) :
    (builder.tree schema).HasPart step (builder.tree part) := by
  rw [tree_eq]
  cases read : schema.reading with
  | combination combinator members =>
    rw [read] at h
    rcases List.mem_mapIdx.mp h with ⟨i, bound, same⟩
    cases same
    simp only [assemble, read]
    cases combinator <;> simp [annotated, combined, TypeTree.HasPart, bound]
  | object properties index =>
    rw [read] at h
    simp only [assemble, read, annotated]
    rcases List.mem_append.mp h with h | h
    · rcases List.mem_map.mp h with ⟨entry, mem, same⟩
      cases same
      exact List.mem_map.mpr ⟨entry, mem, rfl⟩
    · rcases index with _ | _ | further
      · simp at h
      · simp at h
      · simp at h
        rcases h with ⟨rfl, rfl⟩
        rfl
  | array items =>
    rw [read] at h
    cases items with
    | none => simp [Reading.parts] at h
    | some item =>
      simp [Reading.parts] at h
      rcases h with ⟨rfl, rfl⟩
      simp only [assemble, read, annotated]
      rfl
  | _ => simp [read, Reading.parts] at h

/-- The tree of a node stands at the place of the node. -/
theorem tree_hasAt {schema inner : Schema} {way : List Step} (h : schema.HasAt way inner) :
    (builder.tree schema).HasAt way (builder.tree inner) := by
  induction way generalizing schema with
  | nil =>
    rw [Schema.HasAt] at h
    rw [TypeTree.HasAt, h]
  | cons step way ih =>
    rcases h with ⟨part, mem, rest⟩
    exact ⟨builder.tree part, tree_hasPart mem, ih rest⟩

end Builder

end SchemaTypes
