import SchemaTypes.Proofs.Build.Declarations
import SchemaTypes.Proofs.Generation.Findings
import SchemaTypes.Proofs.Text.Split

/-! # What references are bound to

A reference bears the type name of its last segment, and so the name of any component that is
spelled like that segment. As a pointer it may lead elsewhere. Where all declared names are
different, it leads to the component whose name it bears exactly if it refers to a component that
the document has.
-/

namespace SchemaTypes

open SchemaTypes.Json

namespace Reference

def pointer? (reference : String) : Option Pointer :=
  match reference.toList with
  | '#' :: pointer => Pointer.parse? (String.ofList pointer)
  | _ => none

theorem pointer?_componentsRoot_append {written : List Char} (noSlash : '/' ∉ written)
    {reference : String} (shape : reference.toList = componentsRoot.toList ++ written) :
    pointer? reference = some (place (String.ofList (Pointer.unescapeChars written))) := by
  have fragment : reference.toList = '#' :: ("/components/schemas/".toList ++ written) := shape
  rw [pointer?, fragment]
  exact Document.parse?_component noSlash

theorem pointer?_of_component? {reference key : String} (h : component? reference = some key) :
    pointer? reference = some (place key) := by
  obtain ⟨written, -, noSlash, shape, rfl⟩ := component?_eq_some.mp h
  exact pointer?_componentsRoot_append noSlash shape

/-- A pointer to the place of a component is written as the root of the components and a single
token, because neither of the first two tokens needs an escape. -/
theorem pointer?_place {reference key : String} (h : pointer? reference = some (place key)) :
    ∃ written, '/' ∉ written ∧ reference.toList = componentsRoot.toList ++ written ∧
      key = String.ofList (Pointer.unescapeChars written) := by
  have plain {written : List Char} {token : String} (tilde : '~' ∉ token.toList)
      (slash : '/' ∉ token.toList) (same : String.ofList (Pointer.unescapeChars written) = token) :
      written = token.toList := by
    rw [← same, String.toList_ofList] at tilde slash
    rw [← same, String.toList_ofList, Pointer.unescapeChars_eq_self tilde slash]
  rw [pointer?] at h
  split at h
  · next pointer shape =>
    rw [Pointer.parse?, String.toList_ofList] at h
    split at h
    · cases h
    · next rest =>
      obtain ⟨first, others, pieces, isFirst, more⟩ :=
        List.map_eq_cons_iff.mp (Option.some.inj h)
      obtain ⟨second, lasts, rfl, isSecond, last⟩ := List.map_eq_cons_iff.mp more
      obtain ⟨written, none, rfl, isKey, isNone⟩ := List.map_eq_cons_iff.mp last
      rw [List.map_eq_nil_iff] at isNone
      have whole : rest = ['/'].intercalate [first, second, written] := by
        have joined : ['/'].intercalate (rest.splitOn '/') = rest := List.intercalate_splitOn '/'
        rw [← joined, pieces, isNone]
      rw [plain (by decide) (by decide) isFirst, plain (by decide) (by decide) isSecond] at whole
      refine ⟨written, Text.not_mem_of_mem_splitOn (by rw [pieces]; simp), ?_, isKey.symm⟩
      rw [shape, whole, List.intercalate_cons_cons, List.intercalate_cons_cons,
        List.intercalate_singleton]
      rfl
    · cases h
  · cases h

end Reference

/-- A reference leads to where its pointer leads. -/
theorem Document.resolve?_eq (document : Document) (reference : String) :
    document.resolve? reference = (Reference.pointer? reference).bind document.root.at? := by
  rw [resolve?, Reference.pointer?]
  rcases reference.toList with _ | ⟨c, cs⟩
  · rfl
  · by_cases hash : c = '#'
    · rw [hash]
      rfl
    · simp [hash]

namespace Reference

/-- A reference with a pointer to the place of a component refers to the component, unless the key
of the component is empty. -/
theorem component?_of_pointer? {reference key : String}
    (h : pointer? reference = some (place key)) :
    component? reference = some key ∨ reference = componentsRoot ∧ key = "" := by
  obtain ⟨written, noSlash, shape, isKey⟩ := pointer?_place h
  by_cases empty : written = []
  · rw [empty, List.append_nil, String.toList_inj] at shape
    exact .inr ⟨shape, by rw [isKey, empty]; rfl⟩
  · exact .inl (component?_eq_some.mpr ⟨written, empty, noSlash, shape, isKey⟩)

end Reference

namespace Builder

/-- Among declared names that are all different, no two keys have the same one. -/
theorem key_eq_of_typeName {builder : Builder} {schemas : Fields}
    (names : ((builder.buildAll schemas).1.map TypeTree.name).Nodup)
    {entry other : String × Schema} (mem : entry ∈ schemas) (mem' : other ∈ schemas)
    (same : builder.affixes.typeName entry.1 = builder.affixes.typeName other.1) :
    entry = other := by
  rw [buildAll_names] at names
  exact List.inj_on_of_nodup_map names mem mem' (congrArg some same)

theorem nodup_keys {builder : Builder} {schemas : Fields}
    (names : ((builder.buildAll schemas).1.map TypeTree.name).Nodup) :
    (schemas.map (·.1)).Nodup := by
  rw [buildAll_names] at names
  refine List.Nodup.of_map (fun key => some (builder.affixes.typeName key)) ?_
  rwa [List.map_map]

/-- Where all declared names are different, a reference is bound to the component that it leads to,
if it refers to a component of the document, and only then: a reference that bears the name of a
component has a pointer to the place of that component exactly if it consists of the root of the
components and the written key of some component, and then the schema of the component is what it
leads to. -/
theorem references_bind_components (affixes : Affixes) (document : Document)
    (names : ((buildAll ⟨affixes, document.schemas⟩ document.schemas).1.map TypeTree.name).Nodup) :
    let builder : Builder := ⟨affixes, document.schemas⟩
    let roots := (builder.buildAll document.schemas).1
    ∀ (i : Nat) entry way node reference, document.schemas[i]? = some entry →
      Schema.HasAt entry.2 way node → node.target? = some reference →
      ∃ root found, roots[i]? = some root ∧ root.HasAt way found ∧
        found.kind = .reference (affixes.typeName (Reference.name reference)) ∧
        ∀ (j : Nat) key schema, document.schemas[j]? = some (key, schema) →
          roots[j]?.bind TypeTree.name = some (affixes.typeName (Reference.name reference)) →
          ((∃ other ∈ document.schemas, Reference.component? reference = some other.1) ↔
            Reference.pointer? reference = some (Reference.place key)) ∧
          (Reference.pointer? reference = some (Reference.place key) →
            document.resolve? reference = some schema) := by
  intro builder roots i entry way node reference place inside targets
  obtain ⟨found, there, kind, -, -⟩ := rootTree_hasAt builder (some entry.1) inside
  rw [tree_of_target? builder targets] at kind
  refine ⟨_, found, ?_, there, kind, ?_⟩
  · rw [show roots = _ from builder.buildAll_trees document.schemas, List.getElem?_map, place,
      Option.map_some]
  · intro j key schema place' bears
    have mem : (key, schema) ∈ document.schemas := List.mem_of_getElem? place'
    rw [builder.name_getElem? place', Option.some.injEq] at bears
    refine ⟨⟨?_, ?_⟩, ?_⟩
    · rintro ⟨other, mem', component⟩
      rw [Reference.name_of_component? component] at bears
      have same := key_eq_of_typeName names mem mem' bears
      rw [Reference.pointer?_of_component? component, ← same]
    · intro leads
      rcases Reference.component?_of_pointer? leads with component | ⟨rfl, rfl⟩
      · exact ⟨(key, schema), mem, component⟩
      · have apart : Naming.spelling "" ≠
            Naming.spelling (Reference.name Reference.componentsRoot) := by decide
        exact absurd ((affixes.typeName_eq_iff _ _).mp bears) apart
    · intro leads
      rw [document.resolve?_eq, leads, Option.bind_some]
      exact Document.at?_place (nodup_keys names) mem

/-- An item that refers to a component with a slash in its key. -/
theorem references_bind_components_escaped :
    let dog : Schema := .object [("type", .string "string")]
    let item : Schema := .object [("$ref", .string "#/components/schemas/pets~1Dog")]
    let schemas : Fields := [("kennel", .object [("items", item)]), ("pets/Dog", dog)]
    let document := Document.ofValue
      (.object [("components", .object [("schemas", .object schemas)])])
    let roots := (buildAll ⟨⟨"I", ""⟩, document.schemas⟩ document.schemas).1
    (roots.map TypeTree.name).Nodup ∧
    ∃ root found, roots[0]? = some root ∧ root.HasAt [.item] found ∧
      found.kind = .reference "IPetsDog" ∧
      document.resolve? "#/components/schemas/pets~1Dog" = some dog := by
  intro dog item schemas document roots
  have names : (roots.map TypeTree.name).Nodup := by
    rw [show roots.map TypeTree.name = _ from buildAll_names _ _]
    decide
  have inside : Schema.HasAt (.object [("items", item)]) [.item] item :=
    ⟨item, List.mem_singleton.mpr rfl, rfl⟩
  have declared : Affixes.typeName ⟨"I", ""⟩
      (Reference.name "#/components/schemas/pets~1Dog") = "IPetsDog" := by decide
  have second : document.schemas[1]? = some ("pets/Dog", dog) := rfl
  have bears : roots[1]?.bind TypeTree.name = some "IPetsDog" := by
    rw [show roots[1]?.bind TypeTree.name = _ from name_getElem? _ second]
    decide
  have component : ∃ other ∈ document.schemas,
      Reference.component? "#/components/schemas/pets~1Dog" = some other.1 :=
    ⟨("pets/Dog", dog), List.mem_of_getElem? second, by decide⟩
  obtain ⟨root, found, isRoot, there, kind, binds⟩ :=
    references_bind_components ⟨"I", ""⟩ document names 0 ("kennel", .object [("items", item)])
      [.item] item "#/components/schemas/pets~1Dog" rfl inside rfl
  rw [declared] at kind binds
  obtain ⟨refers, leads⟩ := binds 1 "pets/Dog" dog second bears
  exact ⟨names, root, found, isRoot, there, kind, leads (refers.mp component)⟩

/-- A reference to a property that is called like another component. -/
theorem property_bound_to_component :
    let text : Schema := .object [("type", .string "string")]
    let same : Schema := .object [("$ref", .string "#/components/schemas/Owner/properties/name")]
    let owner : Schema := .object [("properties", .object [("name", text), ("nick", same)])]
    let number : Schema := .object [("type", .string "integer")]
    let schemas : Fields := [("Owner", owner), ("Name", number)]
    let document := Document.ofValue
      (.object [("components", .object [("schemas", .object schemas)])])
    let roots := (buildAll ⟨⟨"", ""⟩, document.schemas⟩ document.schemas).1
    (roots.map TypeTree.name).Nodup ∧
    owner.HasAt [.property "nick"] same ∧
    same.target? = some "#/components/schemas/Owner/properties/name" ∧
    (∃ root found, roots[0]? = some root ∧ root.HasAt [.property "nick"] found ∧
      found.kind = .reference "Name") ∧
    document.schemas[1]? = some ("Name", number) ∧
    roots[1]?.bind TypeTree.name = some "Name" ∧
    document.resolve? "#/components/schemas/Owner/properties/name" = some text ∧
    text ≠ number := by
  intro text same owner number schemas document roots
  have names : (roots.map TypeTree.name).Nodup := by
    rw [show roots.map TypeTree.name = _ from buildAll_names _ _]
    decide
  have inside : owner.HasAt [.property "nick"] same :=
    ⟨same, List.mem_cons_of_mem _ (List.mem_singleton.mpr rfl), rfl⟩
  have second : document.schemas[1]? = some ("Name", number) := rfl
  have bears : roots[1]?.bind TypeTree.name = some "Name" := by
    rw [show roots[1]?.bind TypeTree.name = _ from name_getElem? _ second]
    decide
  have target : same.target? = some "#/components/schemas/Owner/properties/name" := rfl
  have first : roots[0]? = some (rootTree ⟨⟨"", ""⟩, schemas⟩ (some "Owner") (some owner)) := by
    rw [show roots = _ from buildAll_trees _ _]
    rfl
  obtain ⟨found, there, kind, -⟩ :=
    rootTree_hasAt ⟨⟨"", ""⟩, schemas⟩ (some "Owner") inside
  rw [tree_of_target? _ target] at kind
  exact ⟨names, inside, target, ⟨_, found, first, there, kind⟩, second, bears, rfl,
    by simp [text, number]⟩

end Builder

end SchemaTypes
