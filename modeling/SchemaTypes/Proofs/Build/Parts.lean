import SchemaTypes.Proofs.Build.Accounting
import SchemaTypes.Proofs.Schema.Description

/-! # The trees of parts

A tree is put together from those of the parts, so schemas that are read in the same form, with the
same trees for their parts, get the same tree wherever nothing else is asked of them.
-/

namespace SchemaTypes

open SchemaTypes.Json

namespace Reading

/-- Two readings have the same form, and the parts of the first have the trees by `tree` that those
of the second have by `same`. -/
def SameTrees (tree same : Schema → TypeTree) : Reading → Reading → Prop
  | .combination combinator members, .combination combinator' members' =>
    combinator = combinator' ∧ members.map tree = members'.map same
  | .object properties index, .object properties' index' =>
    (properties.map fun entry => (entry.1, tree entry.2)) =
        (properties'.map fun entry => (entry.1, same entry.2)) ∧
      (index.map fun part => part.elim .unknown tree) =
        index'.map fun part => part.elim .unknown same
  | .array items, .array items' => items.elim .unknown tree = items'.elim .unknown same
  | reading, reading' => reading = reading'

variable {tree same : Schema → TypeTree} {reading : Reading}

/-- A reading with other parts, each of which has the tree of the part that it is there for. -/
theorem sameTrees_mapParts {f : Step → Schema → Schema}
    (parts : ∀ part ∈ reading.parts, tree (f part.1 part.2) = same part.2) :
    SameTrees tree same (reading.mapParts f) reading := by
  cases reading with
  | combination combinator members =>
    refine ⟨rfl, List.ext_getElem (by simp) fun place _ inside => ?_⟩
    have isMember : place < members.length := by simpa using inside
    have isPart : (.member combinator place, members[place]) ∈
        (combination combinator members).parts :=
      List.mem_mapIdx.mpr ⟨place, isMember, rfl⟩
    simpa only [List.getElem_map, List.getElem_mapIdx] using parts _ isPart
  | object properties index =>
    constructor
    · rw [List.map_map]
      refine List.map_congr_left fun entry mem => ?_
      exact congrArg (Prod.mk entry.1) (parts _ (property_mem_parts mem))
    · rcases index with _ | _ | part
      · rfl
      · rfl
      · exact congrArg some (parts _ (index_mem_parts properties part))
  | array items =>
    cases items with
    | none => rfl
    | some item => exact parts _ (item_mem_parts item)
  | _ => rfl

theorem sameTrees_map {f : Schema → Schema}
    (parts : ∀ part ∈ reading.parts, tree (f part.2) = same part.2) :
    SameTrees tree same (reading.map f) reading := by
  rw [← mapParts_const]
  exact sameTrees_mapParts parts

theorem sameTrees_self (parts : ∀ part ∈ reading.parts, tree part.2 = same part.2) :
    SameTrees tree same reading reading := by
  have mapped : SameTrees tree same (reading.mapParts fun _ schema => schema) reading :=
    sameTrees_mapParts parts
  rwa [mapParts_id] at mapped

end Reading

namespace Builder

/-- The tree of a node follows from the trees of its parts and from no others. -/
theorem assemble_congr (builder : Builder) {tree same : Schema → TypeTree} {schema : Schema}
    (parts : ∀ part ∈ schema.reading.parts, tree part.2 = same part.2) :
    builder.assemble tree schema = builder.assemble same schema := by
  have trees := Reading.sameTrees_self parts
  rw [assemble, assemble]
  cases read : schema.reading with
  | combination combinator members =>
    rw [read] at trees
    simp only [trees.2]
  | object properties index =>
    rw [read] at trees
    simp only [trees.1, trees.2]
  | array items =>
    rw [read] at trees
    exact congrArg (fun item => annotated schema (.array item)) trees
  | _ => rfl

/-- A built-in type has no parts, and neither has a type that is taken by its name. -/
theorem scalar_cases (schema : Schema) :
    (∃ primitive, (scalar schema).result = .primitive primitive) ∨
      ∃ text, (scalar schema).result = .custom text := by
  rw [scalar]
  split
  · exact .inl ⟨_, rfl⟩
  · split
    · exact .inl ⟨_, rfl⟩
    · split
      · exact .inl ⟨_, rfl⟩
      · exact .inr ⟨_, rfl⟩

end Builder

end SchemaTypes
