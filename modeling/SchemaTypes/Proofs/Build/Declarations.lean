import SchemaTypes.Proofs.Naming.Words
import SchemaTypes.Proofs.Build.References

/-! # Names that are declared

Roots are declared under type names, which keep less than the keys have. So components whose keys
are spelled alike are declared under one name, whatever the affixes are. If there are no such keys,
every name is declared once, and a reference to a component means the declaration of that
component.
-/

namespace SchemaTypes

open SchemaTypes.Json

theorem Affixes.typeName_eq_iff (affixes : Affixes) (key other : String) :
    affixes.typeName key = affixes.typeName other ↔
      Naming.spelling key = Naming.spelling other := by
  rw [← Naming.pascal_eq_iff, typeName, typeName, String.append_left_inj, String.append_right_inj]

namespace Builder

def declaredAs (name : String) (roots : List TypeTree) : List TypeTree :=
  roots.filter fun root => root.name == some name

theorem buildAll_names (builder : Builder) (schemas : Fields) :
    (builder.buildAll schemas).1.map TypeTree.name =
      schemas.map fun entry => some (builder.affixes.typeName entry.1) := by
  rw [buildAll_trees, List.map_map]
  exact List.map_congr_left fun entry _ => builder.rootTree_name entry.1 (some entry.2)

theorem name_getElem? (builder : Builder) {schemas : Fields} {i : Nat} {entry : String × Schema}
    (place : schemas[i]? = some entry) :
    (builder.buildAll schemas).1[i]?.bind TypeTree.name =
      some (builder.affixes.typeName entry.1) := by
  rw [buildAll_trees, List.getElem?_map, place]
  exact builder.rootTree_name entry.1 (some entry.2)

theorem rootTree_mem (builder : Builder) {schemas : Fields} {key : String} {schema : Schema}
    (mem : (key, schema) ∈ schemas) :
    builder.rootTree (some key) (some schema) ∈ (builder.buildAll schemas).1 := by
  rw [buildAll_trees]
  exact List.mem_map.mpr ⟨(key, schema), mem, rfl⟩

/-- Declared names are different if and only if the keys are spelled differently. -/
theorem nodup_names_iff (builder : Builder) (schemas : Fields) :
    ((builder.buildAll schemas).1.map TypeTree.name).Nodup ↔
      (schemas.map fun entry => Naming.spelling entry.1).Nodup := by
  rw [buildAll_names, List.Nodup, List.Nodup, List.pairwise_map, List.pairwise_map]
  simp only [ne_eq, Option.some.injEq, Affixes.typeName_eq_iff]

theorem length_declaredAs {roots : List TypeTree} (names : (roots.map TypeTree.name).Nodup)
    (name : String) : (declaredAs name roots).length ≤ 1 := by
  have counted := List.nodup_iff_count_le_one.mp names (some name)
  rwa [List.count_eq_countP, List.countP_map, List.countP_eq_length_filter] at counted

/-- A name that is declared by a root and by no other. -/
theorem declaredAs_eq_singleton {roots : List TypeTree} (names : (roots.map TypeTree.name).Nodup)
    {root : TypeTree} {name : String} (mem : root ∈ roots) (declared : root.name = some name) :
    declaredAs name roots = [root] := by
  have here : root ∈ declaredAs name roots := List.mem_filter.mpr ⟨mem, by simp [declared]⟩
  have single := length_declaredAs names name
  match found : declaredAs name roots with
  | [] => simp [found] at here
  | [only] =>
    rw [found, List.mem_singleton] at here
    rw [here]
  | _ :: _ :: _ => simp [found] at single

/-- Two components are declared under one name exactly if their keys are spelled alike, that is if
they have the same letters and digits in the same order once every word has its capital. If no two
keys are, and not otherwise, the declared names are different; then no name is declared twice, and a
reference to a component bears the name of its one declaration. Keys that are spelled as they stand
are never in each other's way. -/
theorem names_declared_once_iff (affixes : Affixes) (document : Document) :
    let builder : Builder := ⟨affixes, document.schemas⟩
    let roots := (builder.buildAll document.schemas).1
    let keys := document.schemas.map (·.1)
    (∀ (i j : Nat) entry other, document.schemas[i]? = some entry →
      document.schemas[j]? = some other →
      (roots[i]?.bind TypeTree.name = roots[j]?.bind TypeTree.name ↔
        Naming.spelling entry.1 = Naming.spelling other.1)) ∧
    ((roots.map TypeTree.name).Nodup ↔ (keys.map Naming.spelling).Nodup) ∧
    ((roots.map TypeTree.name).Nodup →
      (∀ name, (declaredAs name roots).length ≤ 1) ∧
      ∀ key schema node target, (key, schema) ∈ document.schemas → node.target? = some target →
        Reference.component? target = some key →
        ∃ declared, (builder.tree node).kind = .reference declared ∧
          declaredAs declared roots = [builder.rootTree (some key) (some schema)]) ∧
    (keys.Nodup → (∀ key ∈ keys, Naming.IsSpelled key) → (roots.map TypeTree.name).Nodup) := by
  intro builder roots keys
  have spellings : (roots.map TypeTree.name).Nodup ↔ (keys.map Naming.spelling).Nodup := by
    rw [List.map_map]
    exact builder.nodup_names_iff document.schemas
  refine ⟨fun i j entry other place place' => ?_, spellings, fun names => ⟨?_, ?_⟩, ?_⟩
  · rw [builder.name_getElem? place, builder.name_getElem? place', Option.some.injEq]
    exact affixes.typeName_eq_iff entry.1 other.1
  · exact length_declaredAs names
  · intro key schema node target declared targets component
    refine ⟨affixes.typeName key, ?_, ?_⟩
    · rw [tree_of_target? builder targets, reference, Reference.name_of_component? component]
      rfl
    · have named := builder.rootTree_name key (some schema)
      exact declaredAs_eq_singleton names (builder.rootTree_mem declared) named
  · intro distinct spelled
    rw [spellings]
    refine distinct.map_on fun key mem other mem' same => ?_
    rw [Naming.spelling_of_isSpelled (spelled key mem),
      Naming.spelling_of_isSpelled (spelled other mem')] at same
    exact String.toList_inj.mp same

/-- Keys with and without a separator. -/
theorem pet_status_declared_twice :
    let schemas : Fields := [("pet_status", .object [("type", .string "string")]),
      ("PetStatus", .object [("type", .string "number")])]
    let document := Document.ofValue
      (.object [("components", .object [("schemas", .object schemas)])])
    ¬ ((buildAll ⟨⟨"", ""⟩, document.schemas⟩ document.schemas).1.map TypeTree.name).Nodup := by
  intro schemas document
  rw [buildAll_names]
  decide

end Builder

end SchemaTypes
