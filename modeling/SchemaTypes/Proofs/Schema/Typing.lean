import SchemaTypes.Schema.Reading
import SchemaTypes.Proofs.Schema.Validity

/-! # The type name that a build goes by

A build goes by one type name of a node. If the node has no two names that say something of a value
other than `null`, a valid instance is of the type with that name, or it is `null` and the node
allows it.
-/

namespace SchemaTypes

open SchemaTypes.Json

namespace Schema

/-- No two names under `type` say something of a value other than `null`. -/
def IsSingle (schema : Schema) : Prop :=
  ∀ name ∈ schema.typeNames, ∀ other ∈ schema.typeNames,
    name ≠ "null" → other ≠ "null" → name = other

theorem isNullable_of_isFlagged {schema : Schema} (h : schema.isFlagged) :
    schema.isNullable = true := by
  rw [isFlagged] at h
  rw [isNullable, h]
  rfl

/-- A list of types that names `null` allows it. -/
theorem isNullable_of_null_mem {schema : Schema} {types : List Value}
    (h : schema.get? "type" = some (.array types)) (mem : "null" ∈ types.filterMap Value.string?) :
    schema.isNullable = true := by
  rcases List.mem_filterMap.mp mem with ⟨type, listed, null⟩
  have found : (types.any fun type => type.string? == some "null") = true :=
    List.any_eq_true.mpr ⟨type, listed, by rw [null]; rfl⟩
  simp only [isNullable, h, found, Bool.or_true]

/-- Every type name of a node is the one that a build goes by, or that of `null`. -/
theorem typeName?_of_mem {schema : Schema} (single : schema.IsSingle) {name : String}
    (mem : name ∈ schema.typeNames) :
    schema.typeName? = some name ∨ (name = "null" ∧ schema.isNullable = true) := by
  rw [IsSingle] at single
  rw [typeNames] at mem single
  cases type : schema.get? "type" with
  | none => simp [type] at mem
  | some found =>
    cases found with
    | string text =>
      simp only [type, List.mem_singleton] at mem
      left
      rw [typeName?, type, mem]
    | array types =>
      simp only [type] at mem single
      by_cases isNull : name = "null"
      · subst isNull
        exact .inr ⟨rfl, isNullable_of_null_mem type mem⟩
      · left
        simp only [typeName?, type]
        cases first : (types.filterMap Value.string?).find? (· != "null") with
        | none =>
          have := List.find?_eq_none.mp first name mem
          simp [isNull] at this
        | some other =>
          have otherMem := List.mem_of_find?_eq_some first
          have notNull : other ≠ "null" := by simpa using List.find?_some first
          rw [single name mem other otherMem isNull notNull]
          rfl
    | _ => simp [type] at mem

theorem mem_typeNames_of_typeName? {schema : Schema} {name : String}
    (h : schema.typeName? = some name) : name ∈ schema.typeNames := by
  rw [typeName?] at h
  rw [typeNames]
  cases type : schema.get? "type" with
  | none => simp [type] at h
  | some found =>
    cases found with
    | string text =>
      simp only [type, Option.some.injEq] at h
      simp [h]
    | array types =>
      simp only [type, Option.or_eq_some_iff] at h
      rcases h with h | ⟨-, h⟩
      · exact List.mem_of_find?_eq_some h
      · exact List.mem_of_find?_eq_some h
    | _ => simp [type] at h

theorem typeNames_of_typeName?_none {schema : Schema} (h : schema.typeName? = none) :
    schema.typeNames = [] := by
  rw [typeName?] at h
  rw [typeNames]
  cases type : schema.get? "type" with
  | none => rfl
  | some found =>
    cases found with
    | string text => simp [type] at h
    | array types =>
      simp only [type, Option.or_eq_none_iff, List.find?_eq_none] at h ⊢
      apply List.eq_nil_iff_forall_not_mem.mpr
      intro name mem
      have notOther := h.1 name mem
      have notNull := h.2 name mem
      by_cases isNull : name = "null" <;> simp [isNull] at notOther notNull
    | _ => rfl

theorem allowedTypes_of_mem {schema : Schema} {name : String} (h : name ∈ schema.typeNames) :
    schema.allowedTypes = schema.typeNames := by
  rw [allowedTypes]
  cases names : schema.typeNames with
  | nil =>
    rw [names] at h
    cases h
  | cons first rest => rfl

/-- A node that goes by the type `null` allows `null`, unless this is its only type name. -/
theorem isNullable_of_typeName?_null {schema : Schema} (h : schema.typeName? = some "null") :
    schema.get? "type" = some (.string "null") ∨ schema.isNullable = true := by
  have listed := mem_typeNames_of_typeName? h
  rw [typeNames] at listed
  cases type : schema.get? "type" with
  | none => simp [type] at listed
  | some found =>
    rw [type] at listed
    cases found with
    | string text =>
      left
      rw [List.mem_singleton.mp listed]
    | array types =>
      right
      exact isNullable_of_null_mem type listed
    | _ => cases listed

/-- A value that satisfies a node is `null` where the node allows it, or of the type that a build
goes by, or of one that stands for properties or items. -/
theorem Satisfies.typed {valid : Schema → Value → Prop} {schema : Schema} {value : Value}
    (h : Satisfies valid schema value) (single : schema.IsSingle) :
    (value = .null ∧ schema.isNullable = true) ∨
      (∃ name, schema.typeName? = some name ∧ value.HasType name) ∨
      (schema.typeName? = none ∧
        (schema.allowedTypes = [] ∨ ∃ name ∈ schema.allowedTypes, value.HasType name)) := by
  have types := h.types
  cases goesBy : schema.typeName? with
  | none => exact .inr (.inr ⟨rfl, types⟩)
  | some first =>
    have listed := mem_typeNames_of_typeName? goesBy
    rw [allowedTypes_of_mem listed] at types
    rcases types with empty | ⟨name, mem, typed⟩
    · exact absurd empty (List.ne_nil_of_mem listed)
    · rcases typeName?_of_mem single mem with same | ⟨rfl, nullable⟩
      · exact .inr (.inl ⟨name, goesBy ▸ same, typed⟩)
      · exact .inl ⟨typed, nullable⟩

/-- Where a node can only go by one type, a value that satisfies the node is of that type, or it is
`null` and the node allows it. -/
theorem Satisfies.shaped {valid : Schema → Value → Prop} {schema : Schema} {value : Value}
    (h : Satisfies valid schema value) (single : schema.IsSingle) (type : String)
    (named : ∀ name, schema.typeName? = some name → name = type ∨ name = "null")
    (unnamed : schema.typeName? = none → schema.allowedTypes = [type])
    (bare : schema.get? "type" = some (.string "null") → schema.isFlagged) :
    (value = .null ∧ schema.isNullable = true) ∨ value.HasType type := by
  rcases h.typed single with null | ⟨name, goesBy, typed⟩ | ⟨goesBy, typed⟩
  · exact .inl null
  · rcases named name goesBy with rfl | rfl
    · exact .inr typed
    · left
      refine ⟨typed, ?_⟩
      rcases isNullable_of_typeName?_null goesBy with isBare | nullable
      · exact isNullable_of_isFlagged (bare isBare)
      · exact nullable
  · right
    rw [unnamed goesBy] at typed
    rcases typed with empty | ⟨name, mem, typed⟩
    · cases empty
    · rw [List.mem_singleton] at mem
      rw [← mem]
      exact typed

end Schema

end SchemaTypes
