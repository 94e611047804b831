import SchemaTypes.Proofs.Build.References
import SchemaTypes.Proofs.Schema.Typing
import SchemaTypes.Proofs.TypeTree.Inhabitation

/-! # Valid instances inhabit the built type

A build drops no value that a schema describes. Whatever is read of a node, the value has what the
reading asks of it, and its parts are valid for the parts of the node; a reference is inhabited by
what inhabits the root that is declared for its component. The induction is on the bound of
validity, since a reference leads to a schema that need not be smaller.
-/

namespace SchemaTypes

open SchemaTypes.Json

/-- The type names that agree with a format that decides the built-in type. -/
def Builder.agreeing? : String → Option (List String)
  | "date" | "date-time" => some ["string"]
  | "int32" | "int64" | "float" | "double" => some ["number", "integer"]
  | _ => none

/-- What a node keeps to: its target is a component, and what it says of its type in several ways
fits together. -/
structure Schema.IsRegular (components : Fields) (schema : Schema) : Prop where
  target : ∀ target, schema.target? = some target →
    ∃ key ∈ components.map Prod.fst, key ≠ "" ∧ target = Reference.toComponent key
  single : schema.IsSingle
  object : schema.properties?.isSome → ∀ name ∈ schema.typeNames, name = "object" ∨ name = "null"
  array : schema.isArray → ¬ schema.isObject →
    ∀ name ∈ schema.typeNames, name = "array" ∨ name = "null"
  format : ∀ format names, schema.format? = some format → Builder.agreeing? format = some names →
    schema.typeNames ≠ [] → ∃ name ∈ names, name ∈ schema.typeNames

/-- What a node without a type says of its type fits together. -/
theorem Schema.isRegular_of_untyped {components : Fields} {schema : Schema}
    (target : ∀ target, schema.target? = some target →
      ∃ key ∈ components.map Prod.fst, key ≠ "" ∧ target = Reference.toComponent key)
    (untyped : schema.typeNames = []) : schema.IsRegular components := by
  constructor
  case target => exact target
  case single => simp [Schema.IsSingle, untyped]
  all_goals simp [untyped]

/-- A node that is read as an object or an array although its type is `null` allows `null`. -/
def Schema.KeepsNull (schema : Schema) : Prop :=
  (∃ properties index, schema.reading = .object properties index) ∨
    (∃ items, schema.reading = .array items) →
      schema.get? "type" = some (.string "null") → schema.isFlagged

/-- The component schemas are declared under names of their own, and each node of them keeps to what
it should. -/
structure Builder.IsRegular (builder : Builder) (components : Fields) : Prop where
  names : (components.map fun entry => builder.affixes.typeName entry.1).Nodup
  nodes : ∀ entry ∈ components, Schema.Throughout (Schema.IsRegular components) entry.2

namespace Builder

variable {builder : Builder} {roots : List TypeTree} {valid : Schema → Value → Prop}
  {schema : Schema} {value : Value}

theorem inhabits_annotated_null {kind : Kind TypeTree} (nullable : schema.isNullable = true) :
    (annotated schema kind).Inhabits roots .null := by
  by_cases isNull : kind = .primitive .null
  · subst isNull
    exact .primitive rfl
  · apply TypeTree.Inhabits.null
    rw [nullable]
    cases kind with
    | primitive primitive => cases primitive <;> first | rfl | exact absurd rfl isNull
    | _ => rfl

/-- `null` inhabits the tree of a node that is flagged for it, whatever the node is read as. -/
theorem flagged_sound (flagged : schema.isFlagged) :
    (builder.tree schema).Inhabits roots .null := by
  have nullable := Schema.isNullable_of_isFlagged flagged
  rw [tree_eq, assemble]
  cases read : schema.reading with
  | reference target =>
    apply TypeTree.Inhabits.null
    rw [flagged]
    rfl
  | _ => exact inhabits_annotated_null nullable

/-- Of a combination at least one member is valid, or all are. -/
theorem combination_sound (satisfies : Schema.Satisfies valid schema value)
    {combinator : Combinator} {members : List Schema}
    (read : schema.reading = .combination combinator members)
    (sound : ∀ part ∈ schema.reading.parts, ∀ value, valid part.2 value →
      (builder.tree part.2).Inhabits roots value) :
    (TypeTree.plain (combined schema combinator (members.map builder.tree))).Inhabits
      roots value := by
  have found := Schema.reading_members read
  have each : ∀ member ∈ members, valid member value →
      (builder.tree member).Inhabits roots value := by
    intro member mem holds
    obtain ⟨step, isPart⟩ := Reading.exists_part_of_mem mem
    exact sound _ (read ▸ isPart) value holds
  cases combinator with
  | oneOf =>
    rcases satisfies.oneOf members found with ⟨front, member, back, rfl, holds, -⟩
    have mem : member ∈ front ++ member :: back := by simp
    exact .union (List.mem_map_of_mem mem) (each member mem holds)
  | anyOf =>
    rcases satisfies.anyOf members found with ⟨member, mem, holds⟩
    exact .union (List.mem_map_of_mem mem) (each member mem holds)
  | allOf =>
    apply TypeTree.Inhabits.intersection
    intro tree mem
    rcases List.mem_map.mp mem with ⟨member, listed, rfl⟩
    exact each member listed (satisfies.allOf members found member listed)

/-- A value of a node that is read as an object is one, or `null` where the node allows it. -/
theorem object_typed (satisfies : Schema.Satisfies valid schema value) {components : Fields}
    (regular : schema.IsRegular components) (keepsNull : schema.KeepsNull)
    {properties : Fields} {index : Option (Option Schema)}
    (read : schema.reading = .object properties index) :
    (value = .null ∧ schema.isNullable = true) ∨ ∃ fields, value = .object fields := by
  have isObject := (Schema.reading_object read).1
  rw [Schema.isObject, Bool.or_eq_true, beq_iff_eq] at isObject
  apply satisfies.shaped regular.single "object"
  · intro name goesBy
    rcases isObject with object | some
    · rw [goesBy] at object
      exact .inl (Option.some.inj object)
    · exact regular.object some name (Schema.mem_typeNames_of_typeName? goesBy)
  · intro goesBy
    rw [Schema.allowedTypes, Schema.typeNames_of_typeName?_none goesBy]
    rcases isObject with object | some
    · rw [goesBy] at object
      cases object
    · exact if_pos some
  · exact keepsNull (.inl ⟨_, _, read⟩)

/-- A value of a node that is read as an array is one, or `null` where the node allows it. -/
theorem array_typed (satisfies : Schema.Satisfies valid schema value) {components : Fields}
    (regular : schema.IsRegular components) (keepsNull : schema.KeepsNull) {items : Option Schema}
    (read : schema.reading = .array items) :
    (value = .null ∧ schema.isNullable = true) ∨ ∃ items, value = .array items := by
  obtain ⟨notObject, isArray, -⟩ := Schema.reading_array read
  apply satisfies.shaped regular.single "array"
  · intro name goesBy
    exact regular.array isArray notObject name (Schema.mem_typeNames_of_typeName? goesBy)
  · intro goesBy
    rw [Schema.isObject, Bool.or_eq_true, not_or] at notObject
    rw [Schema.isArray, goesBy] at isArray
    rw [Schema.allowedTypes, Schema.typeNames_of_typeName?_none goesBy]
    simp only [if_neg notObject.2]
    exact if_pos isArray
  · exact keepsNull (.inr ⟨_, read⟩)

/-- The fields of an object inhabit what is built for its properties. -/
theorem object_sound (satisfies : Schema.Satisfies valid schema value) {properties : Fields}
    {index : Option (Option Schema)} (read : schema.reading = .object properties index)
    {fields : Fields} (isObject : value = .object fields)
    (sound : ∀ part ∈ schema.reading.parts, ∀ value, valid part.2 value →
      (builder.tree part.2).Inhabits roots value) :
    (TypeTree.plain (.interface (properties.map fun entry => (entry.1, builder.tree entry.2))
      schema.required (index.map fun part => part.elim .unknown builder.tree))).Inhabits
        roots value := by
  rcases Schema.reading_object read with ⟨-, rfl, rfl⟩
  rw [read, Reading.parts] at sound
  subst isObject
  apply TypeTree.Inhabits.interface
  · intro name type field listed mem
    rcases List.mem_map.mp listed with ⟨⟨key, part⟩, found, same⟩
    cases same
    refine sound (.property key, part) ?_ field ?_
    · exact List.mem_append_left _ (List.mem_map.mpr ⟨(key, part), found, rfl⟩)
    · exact satisfies.properties fields rfl key part field found mem
  · exact satisfies.required fields rfl
  · intro name field mem further type isIndex
    have other : name ∉ (schema.properties?.getD []).map Prod.fst := by
      simpa [Function.comp_def] using further
    have asked := satisfies.further fields rfl name field mem other
    rcases found : schema.index? with _ | _ | part
    · simp [found] at isIndex
    · simp [found] at isIndex
      rw [← isIndex]
      exact TypeTree.inhabits_unknown field
    · simp [found] at isIndex
      rw [← isIndex]
      refine sound (.index, part) ?_ field (asked part ?_)
      · exact List.mem_append_right _ (by simp [found])
      · rw [Schema.index?] at found
        grind

/-- The items of an array inhabit what is built for its items. -/
theorem array_sound (satisfies : Schema.Satisfies valid schema value) {part : Option Schema}
    (read : schema.reading = .array part) {items : List Value} (isArray : value = .array items)
    (sound : ∀ part ∈ schema.reading.parts, ∀ value, valid part.2 value →
      (builder.tree part.2).Inhabits roots value) :
    (TypeTree.plain (.array (part.elim .unknown builder.tree))).Inhabits roots value := by
  rcases Schema.reading_array read with ⟨-, -, found⟩
  rw [read, Reading.parts] at sound
  subst isArray
  apply TypeTree.Inhabits.array
  intro item mem
  cases part with
  | none => exact TypeTree.inhabits_unknown item
  | some part =>
    refine sound (.item, part) (by simp) item (satisfies.items items rfl part ?_ item mem)
    rw [Schema.items?] at found
    grind

theorem scalar_result (schema : Schema) :
    (scalar schema).result =
      match schema.typeName? with
      | none => .primitive .unknown
      | some name =>
        if name = "" then .primitive .unknown else
          match primitive? name with
          | some primitive => .primitive (narrowed schema.format? primitive)
          | none => .custom name := by
  rw [scalar]
  cases schema.typeName? with
  | none => rfl
  | some name =>
    by_cases empty : name = ""
    · simp only [empty, if_true]
      rfl
    · simp only [empty, if_false]
      cases primitive? name <;> rfl

theorem primitive_holds {name : String} {primitive : Primitive}
    (found : primitive? name = some primitive) (typed : value.HasType name) :
    primitive.Holds value := by
  unfold primitive? at found
  split at found <;> cases found
  case h_3 =>
    rcases typed with ⟨n, isNumber, -⟩
    exact ⟨n, isNumber⟩
  all_goals exact typed

/-- A format decides the built-in type exactly if there are type names that agree with it. -/
theorem narrowed_cases (format : String) :
    (agreeing? format = none ∧ ∀ primitive, narrowed (some format) primitive = primitive) ∨
      (agreeing? format = some ["string"] ∧
        ∀ primitive, narrowed (some format) primitive = .string) ∨
      (agreeing? format = some ["number", "integer"] ∧
        ∀ primitive, narrowed (some format) primitive = .number) := by
  by_cases text : format = "date" ∨ format = "date-time"
  · rcases text with rfl | rfl <;> exact .inr (.inl ⟨rfl, fun _ => rfl⟩)
  · by_cases sized : format = "int32" ∨ format = "int64" ∨ format = "float" ∨ format = "double"
    · rcases sized with rfl | rfl | rfl | rfl <;> exact .inr (.inr ⟨rfl, fun _ => rfl⟩)
    · left
      constructor
      · unfold agreeing?
        grind
      · intro primitive
        unfold narrowed
        grind

/-- A format that agrees with the type does not change it. -/
theorem narrowed_eq {components : Fields} (regular : schema.IsRegular components) {name : String}
    (goesBy : schema.typeName? = some name) {primitive : Primitive}
    (found : primitive? name = some primitive) :
    narrowed schema.format? primitive = primitive := by
  cases given : schema.format? with
  | none => rfl
  | some format =>
    have listed := Schema.mem_typeNames_of_typeName? goesBy
    have agrees : ∀ names, agreeing? format = some names → "null" ∉ names → name ∈ names := by
      intro names agreeing notNull
      obtain ⟨other, mem, otherListed⟩ :=
        regular.format format names given agreeing (List.ne_nil_of_mem listed)
      rcases Schema.typeName?_of_mem regular.single otherListed with same | ⟨rfl, -⟩
      · rw [goesBy] at same
        rw [Option.some.inj same]
        exact mem
      · exact absurd mem notNull
    rcases narrowed_cases format with ⟨-, same⟩ | ⟨agreeing, isString⟩ | ⟨agreeing, isNumber⟩
    · exact same primitive
    · have := agrees _ agreeing (by decide)
      rw [List.mem_singleton] at this
      subst this
      rw [isString]
      exact Option.some.inj found
    · have := agrees _ agreeing (by decide)
      rw [List.mem_cons, List.mem_singleton] at this
      rcases this with rfl | rfl <;> rw [isNumber] <;> exact Option.some.inj found

/-- A value of a node that only has a type name is of the type with that name. -/
theorem scalar_sound (satisfies : Schema.Satisfies valid schema value) {components : Fields}
    (regular : schema.IsRegular components) :
    (annotated schema (scalar schema).result).Inhabits roots value := by
  rcases satisfies.typed regular.single with ⟨rfl, nullable⟩ | ⟨name, goesBy, typed⟩ | ⟨goesBy, -⟩
  · exact inhabits_annotated_null nullable
  · rw [scalar_result, goesBy]
    by_cases empty : name = ""
    · simp only [empty, if_true]
      exact .primitive trivial
    · simp only [empty, if_false]
      cases found : primitive? name with
      | none => exact .custom
      | some primitive =>
        simp only [narrowed_eq regular goesBy found]
        exact .primitive (primitive_holds found typed)
  · rw [scalar_result, goesBy]
    exact .primitive trivial

/-- A value that satisfies a node inhabits its tree if this is so of the parts. -/
theorem tree_sound (satisfies : Schema.Satisfies valid schema value) {components : Fields}
    (regular : schema.IsRegular components) (keepsNull : schema.KeepsNull)
    (noTarget : schema.target? = none)
    (sound : ∀ part ∈ schema.reading.parts, ∀ value, valid part.2 value →
      (builder.tree part.2).Inhabits roots value) :
    (builder.tree schema).Inhabits roots value := by
  rw [tree_eq, assemble]
  cases read : schema.reading with
  | reference target =>
    have := Schema.reading_reference read
    rw [noTarget] at this
    cases this
  | custom text => exact .custom
  | combination combinator members => exact (combination_sound satisfies read sound).of_plain
  | enumeration values =>
    obtain ⟨allowed, listed, same⟩ := satisfies.enum values (Schema.reading_enumeration read)
    exact .enumeration listed same
  | object properties index =>
    rcases object_typed satisfies regular keepsNull read with ⟨rfl, nullable⟩ | ⟨fields, isObject⟩
    · exact inhabits_annotated_null nullable
    · exact (object_sound satisfies read isObject sound).of_plain
  | array items =>
    rcases array_typed satisfies regular keepsNull read with ⟨rfl, nullable⟩ | ⟨items, isArray⟩
    · exact inhabits_annotated_null nullable
    · exact (array_sound satisfies read isArray sound).of_plain
  | scalar => exact scalar_sound satisfies regular

/-- What a reference asks is kept by its tree if the trees of all components keep what the
components ask. -/
theorem reference_sound {schemas : Fields} (regular : builder.IsRegular schemas)
    (here : schema.IsRegular schemas) {target : String} (targets : schema.target? = some target)
    {key : String} {part : Schema} (leads : target = Reference.toComponent key)
    (mem : (key, part) ∈ schemas)
    (inhabits : (builder.tree part).Inhabits (builder.buildAll schemas).1 value) :
    (builder.tree schema).Inhabits (builder.buildAll schemas).1 value := by
  rcases here.target target targets with ⟨other, -, nonempty, same⟩
  have name : Reference.name target = key := by
    rw [leads] at same ⊢
    rw [← Reference.toComponent_injective same] at nonempty
    exact Reference.name_of_component? (Reference.component?_toComponent nonempty)
  rw [tree_of_target? builder targets, reference, name]
  apply TypeTree.Inhabits.reference (find?_declared builder regular.names mem)
  have top : Schema.HasAt part [] part := rfl
  obtain ⟨found, rfl, kind, -, nullable⟩ := rootTree_hasAt builder (some key) top
  exact inhabits.of_same kind nullable

/-- What is valid within a bound inhabits the tree, for any schema that leads into the
components. -/
theorem validWithin_inhabits {schemas : Fields} (regular : builder.IsRegular schemas)
    (keepsNull : ∀ entry ∈ schemas, Schema.Throughout Schema.KeepsNull entry.2) (bound : Nat)
    (nodes : schema.Throughout (Schema.IsRegular schemas))
    (nullNodes : schema.Throughout Schema.KeepsNull)
    (valid : Schema.ValidWithin schemas bound schema value) :
    (builder.tree schema).Inhabits (builder.buildAll schemas).1 value := by
  induction bound generalizing schema value with
  | zero => cases valid
  | succ bound ih =>
    rcases Schema.throughout_iff.mp nodes with ⟨here, parts⟩
    rcases Schema.throughout_iff.mp nullNodes with ⟨nullHere, nullParts⟩
    rcases valid with ⟨flagged, rfl⟩ | valid
    · exact flagged_sound flagged
    · cases targets : schema.target? with
      | some target =>
        simp only [targets] at valid
        rcases valid with ⟨key, part, leads, found, valid⟩
        have mem := Fields.mem_of_get? found
        exact reference_sound regular here targets leads mem
          (ih (regular.nodes _ mem) (keepsNull _ mem) valid)
      | none =>
        simp only [targets] at valid
        apply tree_sound valid here nullHere targets
        intro part mem value valid
        exact ih (parts part mem) (nullParts part mem) valid

/-- Every valid instance of a node, at any depth of any component, inhabits the tree that stands in
its place below the root of the component. -/
theorem valid_inhabits (builder : Builder) (schemas : Fields) (regular : builder.IsRegular schemas)
    (keepsNull : ∀ entry ∈ schemas, Schema.Throughout Schema.KeepsNull entry.2) :
    let roots := (builder.buildAll schemas).1
    ∀ (i : Nat) entry way node value, schemas[i]? = some entry → Schema.HasAt entry.2 way node →
      Schema.Valid schemas node value →
        ∃ root found,
          roots[i]? = some root ∧ root.HasAt way found ∧ found.Inhabits roots value := by
  intro roots i entry way node value place inside valid
  rcases valid with ⟨bound, valid⟩
  have mem : entry ∈ schemas := List.mem_of_getElem? place
  have inhabits : (builder.tree node).Inhabits roots value :=
    validWithin_inhabits regular keepsNull bound ((regular.nodes entry mem).below inside)
      ((keepsNull entry mem).below inside) (valid bound (Nat.le_refl bound))
  obtain ⟨found, there, kind, -, nullable⟩ := rootTree_hasAt builder (some entry.1) inside
  refine ⟨_, found, ?_, there, inhabits.of_same kind nullable⟩
  change (builder.buildAll schemas).1[i]? = _
  rw [buildAll_trees, List.getElem?_map, place]
  rfl

/-- A pet that refers to its owner, whose name may be `null`. -/
theorem valid_inhabits_pet :
    let owner : Schema := .object [("$ref", .string "#/components/schemas/Owner")]
    let pet : Schema := .object [("type", .string "object"),
      ("properties", .object [("owner", owner)]), ("required", .array [.string "owner"])]
    let name : Schema := .object [("type", .array [.string "string", .string "null"])]
    let schemas : Fields := [("Pet", pet), ("Owner", name)]
    let builder : Builder := ⟨⟨"", ""⟩, schemas⟩
    let roots := (builder.buildAll schemas).1
    ∃ root, roots[0]? = some root ∧ root.Inhabits roots (.object [("owner", .null)]) := by
  intro owner pet name schemas builder roots
  have petNames : pet.typeNames = ["object"] := rfl
  have ownerNames : owner.typeNames = [] := rfl
  have nameNames : name.typeNames = ["string", "null"] := rfl
  have throughout : ∀ holds : Schema → Prop, holds pet → holds owner → holds name →
      ∀ entry ∈ schemas, Schema.Throughout holds entry.2 := by
    intro holds ofPet ofOwner ofName entry mem
    rcases List.mem_pair.mp mem with rfl | rfl
    · refine Schema.throughout_iff.mpr ⟨ofPet, fun part mem => ?_⟩
      cases List.mem_singleton.mp mem
      exact Schema.throughout_iff.mpr ⟨ofOwner, by rintro _ ⟨⟩⟩
    · exact Schema.throughout_iff.mpr ⟨ofName, by rintro _ ⟨⟩⟩
  have petRegular : pet.IsRegular schemas := by
    constructor
    case target => rintro _ ⟨⟩
    case single => simp [Schema.IsSingle, petNames]
    case object => simp [petNames]
    case array => exact fun _ notObject => absurd rfl notObject
    case format => rintro _ _ ⟨⟩
  have ownerRegular : owner.IsRegular schemas := by
    apply Schema.isRegular_of_untyped _ ownerNames
    intro target targets
    cases targets
    exact ⟨"Owner", by simp [schemas], by simp, by decide⟩
  have nameRegular : name.IsRegular schemas := by
    constructor
    case target => rintro _ ⟨⟩
    case single => simp [Schema.IsSingle, nameNames]
    case object => rintro ⟨⟩
    case array => rintro ⟨⟩
    case format => rintro _ _ ⟨⟩
  have regular : builder.IsRegular schemas :=
    ⟨by decide, throughout _ petRegular ownerRegular nameRegular⟩
  have keepsNull : ∀ entry ∈ schemas, Schema.Throughout Schema.KeepsNull entry.2 := by
    apply throughout
    · intro _ bare
      exact absurd (Value.string.inj (Option.some.inj bare)) (by decide)
    · rintro _ ⟨⟩
    · rintro _ ⟨⟩
  have valid : pet.Valid schemas (.object [("owner", .null)]) := by
    use 3
    intro n large
    rcases Nat.exists_eq_add_of_le' large with ⟨n, rfl⟩
    have nameValid : name.ValidWithin schemas (n + 1) .null := by
      right
      apply Schema.satisfies_null
      · simp [name]
      · decide
      · intro combinator
        cases combinator <;> rfl
      · rfl
    have ownerValid : owner.ValidWithin schemas (n + 2) .null :=
      .inr ⟨"Owner", name, by decide, rfl, nameValid⟩
    right
    constructor
    case types => exact .inr ⟨"object", by decide, [("owner", .null)], rfl⟩
    case properties =>
      intro fields isObject key part field listed mem
      cases isObject
      cases List.mem_singleton.mp listed
      cases List.mem_singleton.mp mem
      exact ownerValid
    case required =>
      intro fields isObject key mem
      cases isObject
      exact mem
    case further => rintro _ _ _ _ _ _ _ ⟨⟩
    case items => rintro _ ⟨⟩
    case possible => simp [pet]
    all_goals rintro _ ⟨⟩
  obtain ⟨root, found, place, there, inhabits⟩ :=
    valid_inhabits builder schemas regular keepsNull 0 ("Pet", pet) [] pet _ rfl rfl valid
  cases there
  exact ⟨root, place, inhabits⟩

/-- Of a node that is an object by its properties and says that its type is `null`, the value `null`
is a valid instance, but not one of the built interface. -/
theorem null_beside_properties :
    let schema : Schema :=
      .object [("type", .string "null"), ("properties", .object [("a", .object [])])]
    let schemas : Fields := [("A", schema)]
    let builder : Builder := ⟨⟨"", ""⟩, schemas⟩
    let roots := (builder.buildAll schemas).1
    builder.IsRegular schemas ∧ schema.Valid schemas .null ∧
      ∃ root, roots = [root] ∧ ¬ root.Inhabits roots .null := by
  intro schema schemas builder roots
  have parts : schema.reading.parts = [(.property "a", .object [])] := rfl
  have names : schema.typeNames = ["null"] := rfl
  have noNames : Schema.typeNames (.object []) = [] := rfl
  have schemaRegular : schema.IsRegular schemas := by
    constructor
    case target => rintro _ ⟨⟩
    case single => simp [Schema.IsSingle, names]
    case object => simp [names]
    case array => simp [names]
    case format => rintro _ _ ⟨⟩
  have anyRegular : Schema.IsRegular schemas (.object []) := by
    apply Schema.isRegular_of_untyped _ noNames
    rintro _ ⟨⟩
  refine ⟨⟨?_, ?_⟩, ⟨1, ?_⟩, ?_⟩
  · simp [schemas]
  · intro entry mem
    rw [List.mem_singleton] at mem
    subst mem
    rw [Schema.throughout_iff, parts, List.forall_mem_singleton, Schema.throughout_iff]
    exact ⟨schemaRegular, anyRegular, by rintro _ ⟨⟩⟩
  · intro n large
    rcases Nat.exists_eq_add_of_le' large with ⟨n, rfl⟩
    right
    apply Schema.satisfies_null
    · simp [schema]
    · exact List.mem_singleton.mpr rfl
    · intro combinator
      cases combinator <;> rfl
    · rfl
  · refine ⟨builder.rootTree (some "A") (some schema), buildAll_trees builder schemas, ?_⟩
    rw [rootTree, Option.elim_some, Option.elim_some, tree_eq]
    rintro ⟨⟨⟩⟩

end Builder

end SchemaTypes
