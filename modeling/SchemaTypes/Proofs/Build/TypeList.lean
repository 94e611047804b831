import SchemaTypes.Proofs.Build.Parts
import SchemaTypes.Proofs.Build.Soundness
import SchemaTypes.Proofs.Schema.TypeList
import SchemaTypes.TypeTree.Inline

/-! # The order of types

A node with a list of types is built by the leading one of them, so that with another order of the
same names it is built into the same type if the same name leads. A node that is read by something
stronger than its type stays what it is in any case. One that is read by its type keeps its values
exactly if the two leading names stand for the same values.
-/

namespace SchemaTypes

open SchemaTypes.Json

namespace Schema

variable {schema : Schema}

theorem goesByType_of_scalar (read : schema.reading = .scalar) : schema.GoesByType := by
  have noObject : ¬ schema.isObject := by
    rw [reading] at read
    grind
  rw [reading] at read
  constructor
  case properties =>
    rw [isObject, Bool.or_eq_true, not_or, Option.not_isSome_iff_eq_none] at noObject
    exact noObject.2
  all_goals grind

/-- What a node is read as that goes by its type. -/
theorem reading_of_goesByType (byType : schema.GoesByType) {name : String}
    (typeName : schema.typeName? = some name) :
    schema.reading =
      if name = "object" then .object [] schema.index?
      else if name = "array" ∨ (schema.get? "items").isSome then .array schema.items?
      else .scalar := by
  simp [reading, byType.target, byType.custom, byType.combination, byType.enumeration,
    byType.properties, isObject, isArray, typeName]

end Schema

/-- Two types differ at most in the flag of an enumeration. -/
inductive TypeTree.SameButFlag : TypeTree → TypeTree → Prop
  | refl (tree : TypeTree) : SameButFlag tree tree
  | enumeration (attributes : Attributes) (values : List Value) (flag flag' : Bool) :
      SameButFlag (.node attributes (.enumeration values flag))
        (.node attributes (.enumeration values flag'))

namespace TypeTree.SameButFlag

variable {tree other : TypeTree}

theorem mapAttributes (same : tree.SameButFlag other) (f : Attributes → Attributes) :
    (tree.mapAttributes f).SameButFlag (other.mapAttributes f) := by
  cases same with
  | refl => exact .refl _
  | enumeration => exact .enumeration _ _ _ _

/-- The flag is not written. -/
theorem inline (same : tree.SameButFlag other) : tree.inline = other.inline := by
  cases same with
  | refl => rfl
  | enumeration =>
    simp only [TypeTree.inline, inlineAt, kindAt, nullSuffix, kindListsNull]
    rfl

theorem customs (same : tree.SameButFlag other) : tree.customs = other.customs := by
  cases same with
  | refl => rfl
  | enumeration =>
    rw [customs_node (by rintro _ ⟨⟩), customs_node (by rintro _ ⟨⟩)]
    rfl

theorem inhabits (same : tree.SameButFlag other) {roots : List TypeTree} {value : Value}
    (inhabits : tree.Inhabits roots value) : other.Inhabits roots value := by
  cases same with
  | refl => exact inhabits
  | enumeration =>
    cases inhabits with
    | null nullable => exact .null nullable
    | enumeration listed same => exact .enumeration listed same

theorem symm (same : tree.SameButFlag other) : other.SameButFlag tree := by
  cases same with
  | refl => exact .refl _
  | enumeration => exact .enumeration _ _ _ _

end TypeTree.SameButFlag

namespace Builder

variable {schema other : Schema} {types others : List String}

def typicalKind (builder : Builder) (schema : Schema) : ValueKind → Kind TypeTree
  | .objects =>
    .interface [] schema.required (schema.index?.map fun part => part.elim .unknown builder.tree)
  | .arrays => .array (schema.items?.elim .unknown builder.tree)
  | .strings => .primitive .string
  | .numbers => .primitive .number
  | .booleans => .primitive .boolean
  | .anything => .primitive .unknown

/-- Under a format the type with a name other than `null` is one of three. -/
theorem narrowed_of_primitive? {name : String} (noNull : name ≠ "null") {primitive : Primitive}
    (found : primitive? name = some primitive) (format : Option String) :
    narrowed format primitive ∈ [.string, .number, .boolean] := by
  have builtIn : primitive ∈ [.string, .number, .boolean] := by
    unfold primitive? at found
    grind
  unfold narrowed
  split
  all_goals first | exact builtIn | decide

/-- The type of a node that goes by a name has the values that the name stands for. -/
theorem inhabits_of_goesByType (builder : Builder) (byType : schema.GoesByType) {name : String}
    (typeName : schema.typeName? = some name) (noNull : name ≠ "null") (roots : List TypeTree)
    (value : Value) : (builder.tree schema).Inhabits roots value ↔
      (annotated schema (builder.typicalKind schema (schema.valuesNamed name))).Inhabits
        roots value := by
  have read := Schema.reading_of_goesByType byType typeName
  rw [tree_eq, assemble, Schema.valuesNamed]
  by_cases object : name = "object"
  · rw [read, if_pos object, if_pos object]
    rfl
  · rw [if_neg object] at read ⊢
    by_cases array : name = "array" ∨ (schema.get? "items").isSome
    · rw [read, if_pos array, if_pos array]
      rfl
    · rw [read, if_neg array, if_neg array]
      dsimp only
      rw [scalar_result, typeName]
      dsimp only
      cases found : primitive? name with
      | none =>
        split
        · rfl
        · exact iff_of_true .custom (.primitive trivial)
      | some primitive =>
        have nonempty : name ≠ "" := by
          rintro rfl
          cases found
        rw [if_neg nonempty]
        have narrow := narrowed_of_primitive? noNull found schema.format?
        simp only [List.mem_cons, List.not_mem_nil, or_false] at narrow
        rcases narrow with isString | isNumber | isBoolean
        · simp only [isString]
          rfl
        · simp only [isNumber]
          rfl
        · simp only [isBoolean]
          rfl

theorem has_of_inhabits {builder : Builder} {kind : ValueKind} {roots : List TypeTree}
    {value : Value} (noNull : value ≠ .null)
    (inhabits : (annotated schema (builder.typicalKind schema kind)).Inhabits roots value) :
    kind.has value := by
  cases kind with
  | objects =>
    cases inhabits with
    | null => exact absurd rfl noNull
    | interface => rfl
  | arrays =>
    cases inhabits with
    | null => exact absurd rfl noNull
    | array => rfl
  | anything => rfl
  | strings | numbers | booleans =>
    cases inhabits with
    | null => exact absurd rfl noNull
    | primitive holds =>
      obtain ⟨content, rfl⟩ := holds
      rfl

theorem inhabits_of_sample (builder : Builder) (schema : Schema) (roots : List TypeTree)
    {kind : ValueKind} {value : Value} (sample : value ∈ ValueKind.samples)
    (has : kind.has value) :
    (annotated schema (builder.typicalKind schema kind)).Inhabits roots value := by
  simp only [ValueKind.samples, List.mem_cons, List.not_mem_nil, or_false] at sample
  cases kind with
  | anything => exact .primitive trivial
  | objects => rcases sample with rfl | rfl | rfl | rfl <;> cases has
  | arrays =>
    rcases sample with rfl | rfl | rfl | rfl <;> cases has
    exact .array fun item mem => absurd mem List.not_mem_nil
  | strings | numbers | booleans =>
    rcases sample with rfl | rfl | rfl | rfl <;> cases has
    exact .primitive ⟨_, rfl⟩

theorem inhabits_sample_iff (builder : Builder) (schema : Schema) (roots : List TypeTree)
    {kind : ValueKind} {value : Value} (sample : value ∈ ValueKind.samples) :
    (annotated schema (builder.typicalKind schema kind)).Inhabits roots value ↔
      kind.has value := by
  refine ⟨has_of_inhabits ?_, builder.inhabits_of_sample schema roots sample⟩
  rintro rfl
  simp [ValueKind.samples] at sample

section Reordered

variable (builder : Builder) (reordered : Schema.Reordered types others schema other)
include reordered

theorem annotated_reordered (kind : Kind TypeTree) :
    annotated other kind = annotated schema kind := by
  rw [annotated.eq_def, annotated.eq_def, reordered.isNullable, reordered.rest.description?]

theorem typicalKind_reordered (kind : ValueKind) :
    builder.typicalKind other kind = builder.typicalKind schema kind := by
  cases kind <;> simp only [typicalKind, reordered.rest.required, reordered.rest.index?,
    reordered.rest.items?]

/-- Nodes that are read as the same are built into the same type, if no type name is asked for. -/
theorem tree_reordered (reads : other.reading = schema.reading)
    (asked : schema.reading = .scalar ∨ (∃ values, schema.reading = .enumeration values) →
      other.typeName? = schema.typeName?) : builder.tree other = builder.tree schema := by
  have rest := reordered.rest
  rw [tree_eq, tree_eq, assemble, assemble, reads]
  cases read : schema.reading with
  | reference target =>
    simp only [reference, rest "nullable" (by decide), rest.description?]
  | combination combinator members =>
    simp only [annotated_reordered reordered, combined.eq_def, discriminator?,
      rest "discriminator" (by decide)]
  | enumeration values =>
    simp only [annotated_reordered reordered, enumeration, asked (.inr ⟨values, read⟩)]
  | object properties index => simp only [annotated_reordered reordered, rest.required]
  | scalar =>
    simp only [annotated_reordered reordered, scalar_result, asked (.inl read), rest.format?]
  | _ => exact annotated_reordered reordered _

theorem findings_reordered (reads : other.reading = schema.reading) :
    builder.findings other = builder.findings schema := by
  funext pointer
  rw [findings_eq, findings_eq, ownFindings, ownFindings, reads, reordered.rest.properties?]

/-- A node that is not read by its type keeps its type, but for the flag of an enumeration. -/
theorem tree_reordered_of_not (notByType : ¬ schema.GoesByType) :
    (builder.tree other).SameButFlag (builder.tree schema) := by
  have reads := reordered.rest.reading_of_not notByType
  by_cases enumerated : ∃ values, schema.reading = .enumeration values
  · obtain ⟨values, read⟩ := enumerated
    rw [tree_eq, tree_eq builder schema, assemble, assemble, reads, read]
    dsimp only
    rw [annotated_reordered reordered]
    exact .enumeration _ _ _ _
  · have trees := builder.tree_reordered reordered reads fun asked => ?_
    · rw [trees]
      exact .refl _
    · rcases asked with read | enumeration
      · exact absurd (Schema.goesByType_of_scalar read) notByType
      · exact absurd enumeration enumerated

theorem rootTree_reordered_of_not (name : Option String) (notByType : ¬ schema.GoesByType) :
    (builder.rootTree name (some other)).SameButFlag (builder.rootTree name (some schema)) := by
  have trees := builder.tree_reordered_of_not reordered notByType
  cases name with
  | none => exact trees
  | some name => exact trees.mapAttributes _

/-- Where the same name leads, the whole build is the same. -/
theorem root_reordered (name : Option String)
    (leading : leadingType? types = leadingType? others) :
    builder.root name (some other) = builder.root name (some schema) := by
  have typeName := reordered.typeName? leading
  have reads := reordered.rest.reading typeName
  have trees := builder.tree_reordered reordered reads fun _ => typeName
  have roots : builder.rootTree name (some other) = builder.rootTree name (some schema) := by
    rw [rootTree, rootTree, Option.elim_some, Option.elim_some, trees]
  funext context
  refine (builder.root_yields name (some other) context).trans
    (Eq.trans ?_ (builder.root_yields name (some schema) context).symm)
  dsimp only [Option.elim_some]
  rw [roots, builder.findings_reordered reordered reads]

end Reordered

theorem inhabits_rootTree_iff (builder : Builder) (name : Option String) (schema : Schema)
    (roots : List TypeTree) (value : Value) :
    (builder.rootTree name (some schema)).Inhabits roots value ↔
      (builder.tree schema).Inhabits roots value := by
  rw [rootTree, Option.elim_some]
  cases name with
  | none => rfl
  | some name =>
    rcases builder.tree schema with ⟨attributes, kind⟩
    exact ⟨fun h => h.of_same rfl rfl, fun h => h.of_same rfl rfl⟩

/-- In a node that is read by its type two leading names give the same values exactly if they stand
for the same ones. -/
theorem sameValues_iff_of_goesByType (builder : Builder)
    (reordered : Schema.Reordered types others schema other) (byType : schema.GoesByType)
    (roots : List TypeTree) :
    (∀ value, (builder.tree other).Inhabits roots value ↔
      (builder.tree schema).Inhabits roots value) ↔
        (leadingType? others).map schema.valuesNamed =
          (leadingType? types).map schema.valuesNamed := by
  cases leads : leadingType? types with
  | none =>
    have leads' : leadingType? others = none :=
      (leadingType?_eq_none_iff_of_perm reordered.perm).mp leads
    have typeName := reordered.typeName? (leads.trans leads'.symm)
    rw [leads',
      builder.tree_reordered reordered (reordered.rest.reading typeName) fun _ => typeName]
    exact iff_of_true (fun _ => Iff.rfl) rfl
  | some name =>
    obtain ⟨name', leads'⟩ := Option.ne_none_iff_exists'.mp fun none => by
      rw [(leadingType?_eq_none_iff_of_perm reordered.perm).mpr none] at leads
      cases leads
    have inhabits := builder.inhabits_of_goesByType byType
      (Schema.typeName?_of_leading reordered.listed leads) (leadingType?_ne_null leads) roots
    have inhabits' := builder.inhabits_of_goesByType (reordered.rest.goesByType byType)
      (Schema.typeName?_of_leading reordered.relisted leads') (leadingType?_ne_null leads') roots
    simp only [annotated_reordered reordered, builder.typicalKind_reordered reordered,
      reordered.rest.valuesNamed] at inhabits'
    rw [leads', Option.map_some, Option.map_some, Option.some.injEq]
    simp only [inhabits, inhabits']
    constructor
    · intro same
      refine ValueKind.eq_of_samples fun value sample => ?_
      rw [Bool.eq_iff_iff, ← builder.inhabits_sample_iff schema roots sample,
        ← builder.inhabits_sample_iff schema roots sample]
      exact same value
    · intro same value
      rw [same]

/-- A node with a list of types is built in the same way with the names in another order, if the
same name other than `null` comes first. If the node is not read by its type, any order brings the
same uses and findings, and a type that is written the same. If it is read by its type, the two
types have the same values exactly if the two leading names stand for the same values at the
node. -/
theorem type_list_reordered (builder : Builder) (name : Option String)
    (reordered : Schema.Reordered types others schema other) :
    let build := builder.root name (some schema)
    let rebuild := builder.root name (some other)
    (leadingType? types = leadingType? others → rebuild = build) ∧
    (¬ schema.GoesByType → rebuild.result.inline = build.result.inline ∧
      ∀ before, (rebuild.run before).2 = (build.run before).2) ∧
    ∀ roots, (∀ value, rebuild.result.Inhabits roots value ↔ build.result.Inhabits roots value) ↔
      (schema.GoesByType →
        (leadingType? others).map schema.valuesNamed =
          (leadingType? types).map schema.valuesNamed) := by
  intro build rebuild
  have result : build.result = builder.rootTree name (some schema) :=
    (builder.root_yields name (some schema)).result_eq
  have result' : rebuild.result = builder.rootTree name (some other) :=
    (builder.root_yields name (some other)).result_eq
  rw [result, result']
  refine ⟨builder.root_reordered reordered name, fun notByType => ?_, fun roots => ?_⟩
  · have same := builder.rootTree_reordered_of_not reordered name notByType
    refine ⟨same.inline, fun before => ?_⟩
    rw [builder.root_yields name (some other) before, builder.root_yields name (some schema) before]
    dsimp only [Option.elim_some]
    rw [same.customs,
      builder.findings_reordered reordered (reordered.rest.reading_of_not notByType)]
  · by_cases byType : schema.GoesByType
    · rw [forall_prop_of_true byType, ← builder.sameValues_iff_of_goesByType reordered byType roots]
      simp only [inhabits_rootTree_iff]
    · have same := builder.rootTree_reordered_of_not reordered name byType
      exact iff_of_true (fun value => ⟨same.inhabits, same.symm.inhabits⟩)
        fun isByType => absurd isByType byType

/-- A format that makes numbers of strings, and a list in which `null` moves. -/
theorem type_list_reordered_narrowed :
    let node (types : List String) : Schema :=
      .object [("type", .array (types.map .string)), ("format", .string "int64")]
    let builder : Builder := ⟨⟨"I", ""⟩, []⟩
    let build (types : List String) := builder.root (some "id") (some (node types))
    let types := ["null", "integer", "string"]
    Schema.Reordered types ["integer", "string", "null"] (node types)
        (node ["integer", "string", "null"]) ∧
      Schema.Reordered types ["string", "null", "integer"] (node types)
        (node ["string", "null", "integer"]) ∧
      build ["integer", "string", "null"] = build types ∧
      ∀ value, (build ["string", "null", "integer"]).result.Inhabits [] value ↔
        (build types).result.Inhabits [] value := by
  intro node builder build types
  have rest (some others : List String) : Schema.SameButType (node some) (node others) := by
    intro keyword noType
    simp [node, Value.get?, Fields.get?, Ne.symm noType]
  have moved : Schema.Reordered types ["integer", "string", "null"] (node types)
      (node ["integer", "string", "null"]) := ⟨rfl, rfl, by decide, rest _ _⟩
  have turned : Schema.Reordered types ["string", "null", "integer"] (node types)
      (node ["string", "null", "integer"]) := ⟨rfl, rfl, by decide, rest _ _⟩
  refine ⟨moved, turned, (builder.type_list_reordered (some "id") moved).1 rfl, ?_⟩
  exact ((builder.type_list_reordered (some "id") turned).2.2 []).mpr fun _ => by decide

/-- Strings are values of the type for one order of two names and not of that for the other. -/
theorem string_lost_behind_integer :
    let node (types : List String) : Schema := .object [("type", .array (types.map .string))]
    let built (types : List String) :=
      (Builder.root ⟨⟨"", ""⟩, []⟩ none (some (node types))).result
    ["string", "integer"].Perm ["integer", "string"] ∧
      (built ["string", "integer"]).Inhabits [] (.string "a") ∧
      ¬ (built ["integer", "string"]).Inhabits [] (.string "a") := by
  intro node built
  have isTree (types : List String) : built types = Builder.tree ⟨⟨"", ""⟩, []⟩ (node types) :=
    (Builder.root_yields _ none (some (node types))).result_eq
  refine ⟨by decide, ?_, ?_⟩
  · rw [isTree, tree_eq]
    exact .primitive ⟨"a", rfl⟩
  · rw [isTree, tree_eq]
    rintro (_ | ⟨⟨_, ⟨⟩⟩⟩)

end Builder

end SchemaTypes
