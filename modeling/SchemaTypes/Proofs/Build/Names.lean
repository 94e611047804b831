import SchemaTypes.Proofs.Build.Parts
import SchemaTypes.Proofs.Build.Places
import SchemaTypes.Proofs.Naming.Words
import SchemaTypes.Proofs.TypeTree.Lines

/-! # The names in built trees

Every part of a built tree is the tree of a part of its schema, so that what is known of all trees
is known of all their nodes. In particular a reference bears a type name, and what is left of a raw
name in one has no line feed.
-/

namespace SchemaTypes

open SchemaTypes.Json

/-- The letters and digits that are left of a raw name are no line feeds. -/
theorem Affixes.newline_not_mem_typeName {affixes : Affixes} (front : '\n' ∉ affixes.front.toList)
    (back : '\n' ∉ affixes.back.toList) (raw : String) :
    '\n' ∉ (affixes.typeName raw).toList := by
  have spelled : '\n' ∉ Naming.spelling raw := by
    rw [Naming.spelling, ← Naming.joinWords_words]
    split
    · decide
    · exact fun mem => absurd (Naming.isAlphanum_of_mem_joinWords mem) (by decide)
  have words : '\n' ∉ (Naming.pascal raw).toList := by
    rw [Naming.pascal_toList]
    split
    · simpa using spelled
    · exact spelled
  simp only [typeName, String.toList_append, List.mem_append, not_or]
  exact ⟨⟨front, words⟩, back⟩

namespace Builder

variable {builder : Builder} {schema : Schema}

/-- The parts of a tree are the trees of the parts, but where anything is allowed. -/
theorem part_of_tree {part : TypeTree} (mem : part ∈ (builder.tree schema).kind.parts) :
    part = .unknown ∨ ∃ inner ∈ schema.reading.parts, part = builder.tree inner.2 := by
  rw [tree_eq, assemble] at mem
  cases read : schema.reading with
  | reference target => simp [read, reference, TypeTree.kind, Kind.parts] at mem
  | custom text => simp [read, annotated, TypeTree.kind, Kind.parts] at mem
  | combination combinator members =>
    have listed : part ∈ members.map builder.tree := by
      rw [read] at mem
      cases combinator <;> exact mem
    obtain ⟨member, isMember, rfl⟩ := List.mem_map.mp listed
    obtain ⟨step, isPart⟩ := Reading.exists_part_of_mem isMember
    exact .inr ⟨_, isPart, rfl⟩
  | enumeration values => simp [read, annotated, enumeration, TypeTree.kind, Kind.parts] at mem
  | object properties index =>
    simp only [read, annotated, TypeTree.kind, Kind.parts, List.map_map, List.mem_append,
      Option.mem_toList] at mem
    rcases mem with isProperty | isIndex
    · obtain ⟨entry, isEntry, rfl⟩ := List.mem_map.mp isProperty
      exact .inr ⟨_, Reading.property_mem_parts isEntry, rfl⟩
    · rcases index with _ | _ | further
      · cases isIndex
      · exact .inl (Option.some.inj isIndex).symm
      · exact .inr ⟨_, Reading.index_mem_parts properties further, (Option.some.inj isIndex).symm⟩
  | array items =>
    simp only [read, annotated, TypeTree.kind, Kind.parts, List.mem_singleton] at mem
    rcases items with _ | item
    · exact .inl mem
    · exact .inr ⟨_, Reading.item_mem_parts item, mem⟩
  | scalar =>
    rw [read] at mem
    dsimp only at mem
    rcases scalar_cases schema with ⟨_, isLeaf⟩ | ⟨_, isLeaf⟩ <;>
      simp [isLeaf, annotated, TypeTree.kind, Kind.parts] at mem

/-- Every node of a tree is the tree of a node that the build comes to, but where anything is
allowed. -/
theorem node_of_tree {node : TypeTree} (mem : node ∈ (builder.tree schema).nodes) :
    node = .unknown ∨ ∃ way inner, schema.HasAt way inner ∧ node = builder.tree inner := by
  induction schema using Schema.inductionOnParts with
  | node schema parts =>
    have unfolded : (builder.tree schema).nodes =
        builder.tree schema :: (builder.tree schema).kind.parts.flatMap TypeTree.nodes := by
      rcases builder.tree schema with ⟨attributes, kind⟩
      exact TypeTree.nodes_node attributes kind
    rw [unfolded] at mem
    rcases List.mem_cons.mp mem with rfl | below
    · exact .inr ⟨[], schema, rfl, rfl⟩
    · obtain ⟨part, isPart, inside⟩ := List.mem_flatMap.mp below
      rcases part_of_tree isPart with rfl | ⟨⟨step, inner⟩, isInner, rfl⟩
      · exact .inl (List.mem_singleton.mp inside)
      · refine (parts _ isInner inside).imp_right ?_
        rintro ⟨way, deeper, there, same⟩
        exact ⟨step :: way, deeper, ⟨inner, isInner, there⟩, same⟩

/-- A reference bears the type name of what its target is called. -/
theorem reference_of_tree {name : String}
    (isReference : (builder.tree schema).kind = .reference name) :
    ∃ raw, name = builder.affixes.typeName raw := by
  rw [tree_eq, assemble] at isReference
  cases read : schema.reading with
  | reference target =>
    rw [read] at isReference
    cases isReference
    exact ⟨_, rfl⟩
  | combination combinator members =>
    rw [read] at isReference
    cases combinator <;> cases isReference
  | scalar =>
    rw [read] at isReference
    dsimp only at isReference
    rcases scalar_cases schema with ⟨_, isLeaf⟩ | ⟨_, isLeaf⟩ <;>
      simp [isLeaf, annotated, TypeTree.kind] at isReference
  | _ =>
    rw [read] at isReference
    cases isReference

/-- The names in a tree have no line feed if its custom types and the affixes have none. -/
theorem hasWholeNames_tree (front : '\n' ∉ builder.affixes.front.toList)
    (back : '\n' ∉ builder.affixes.back.toList)
    (customs : ∀ text ∈ (builder.tree schema).customs, '\n' ∉ text.toList) :
    (builder.tree schema).HasWholeNames := by
  intro node mem name isName
  rcases node with ⟨attributes, kind⟩
  cases kind with
  | custom text =>
    exact customs name (List.mem_filterMap.mpr ⟨_, mem, isName⟩)
  | reference target =>
    rcases node_of_tree mem with isUnknown | ⟨way, inner, -, same⟩
    · cases isUnknown
    · have isReference : (builder.tree inner).kind = .reference target := by rw [← same]; rfl
      obtain ⟨raw, rfl⟩ := reference_of_tree isReference
      rw [← Option.some.inj isName]
      exact Affixes.newline_not_mem_typeName front back raw
  | _ => cases isName

theorem hasWholeNames_rootTree (front : '\n' ∉ builder.affixes.front.toList)
    (back : '\n' ∉ builder.affixes.back.toList) (name : String)
    (customs : ∀ text ∈ (builder.rootTree (some name) (some schema)).customs,
      '\n' ∉ text.toList) :
    (builder.rootTree (some name) (some schema)).HasWholeNames := by
  have same : (builder.rootTree (some name) (some schema)).customs =
      (builder.tree schema).customs := TypeTree.customs_mapAttributes _ _
  exact (hasWholeNames_tree front back (same ▸ customs)).mapAttributes _

end Builder

end SchemaTypes
