import SchemaTypes.Schema.Basic
import SchemaTypes.Schema.Reference
import SchemaTypes.Proofs.Json.Sameness

/-! # Valid instances

Which values a schema describes. A node asks several things of a value at once, all of which have
to hold; a keyword of an unexpected kind, or an empty one, asks nothing. Since references can lead
round in circles, validity is looked at within a bound on the nesting of nodes, and a value is
valid if it is so within every bound that is large enough.
-/

namespace SchemaTypes

open SchemaTypes.Json

/-- Whether a value is of a type. A name that is not known says nothing. -/
def Json.Value.HasType (value : Value) : String → Prop
  | "null" => value = .null
  | "boolean" => ∃ b, value = .bool b
  | "number" => ∃ n, value = .number n
  | "integer" => ∃ n, value = .number n ∧ n.exact.isInt
  | "string" => ∃ text, value = .string text
  | "array" => ∃ items, value = .array items
  | "object" => ∃ fields, value = .object fields
  | _ => True

namespace Schema

def typeNames (schema : Schema) : List String :=
  match schema.get? "type" with
  | some (.string name) => [name]
  | some (.array types) => types.filterMap Value.string?
  | _ => []

/-- The types that a node allows, if it says something of them. Properties without a type are those
of an object, and items those of an array. -/
def allowedTypes (schema : Schema) : List String :=
  match schema.typeNames with
  | [] =>
    if schema.properties?.isSome then ["object"]
    else if (schema.get? "items").isSome then ["array"]
    else []
  | names => names

/-- The flag by which `null` is an instance of a node whatever else the node asks. -/
def isFlagged (schema : Schema) : Prop := schema.get? "nullable" = some (.bool true)

/-- A value has all that a node other than a reference asks of it, given which values are valid for
the parts of the node. -/
structure Satisfies (valid : Schema → Value → Prop) (schema : Schema) (value : Value) : Prop where
  possible : schema ≠ .bool false
  types : schema.allowedTypes = [] ∨ ∃ name ∈ schema.allowedTypes, value.HasType name
  oneOf : ∀ members, schema.members? .oneOf = some members →
    ∃ front member back, members = front ++ member :: back ∧ valid member value ∧
      ∀ other ∈ front ++ back, ¬ valid other value
  anyOf : ∀ members, schema.members? .anyOf = some members → ∃ member ∈ members, valid member value
  allOf : ∀ members, schema.members? .allOf = some members → ∀ member ∈ members, valid member value
  enum : ∀ values, schema.list? "enum" = some values → ∃ allowed ∈ values, value.Same allowed
  properties : ∀ fields, value = .object fields → ∀ name part field,
    (name, part) ∈ schema.properties?.getD [] → (name, field) ∈ fields → valid part field
  required : ∀ fields, value = .object fields → ∀ name ∈ schema.required, name ∈ fields.map Prod.fst
  further : ∀ fields, value = .object fields → ∀ name field, (name, field) ∈ fields →
    name ∉ (schema.properties?.getD []).map Prod.fst →
      ∀ part, schema.get? "additionalProperties" = some part → valid part field
  items : ∀ items, value = .array items → ∀ part, schema.get? "items" = some part →
    ∀ item ∈ items, valid part item

/-- A node that asks nothing but a type is satisfied by `null` if it allows this type. -/
theorem satisfies_null {valid : Schema → Value → Prop} {schema : Schema}
    (possible : schema ≠ .bool false) (allowed : "null" ∈ schema.allowedTypes)
    (noMembers : ∀ combinator, schema.members? combinator = none)
    (noValues : schema.list? "enum" = none) : Satisfies valid schema .null := by
  constructor
  case possible => exact possible
  case types => exact .inr ⟨"null", allowed, rfl⟩
  case enum => simp [noValues]
  case properties => rintro _ ⟨⟩
  case required => rintro _ ⟨⟩
  case further => rintro _ ⟨⟩
  case items => rintro _ ⟨⟩
  all_goals simp [noMembers]

/-- A value is valid for a node, looking at nodes that are nested no deeper than a bound. What a
reference asks is what the component asks that it leads to. -/
def ValidWithin (components : Fields) : Nat → Schema → Value → Prop
  | 0, _, _ => False
  | n + 1, schema, value =>
    (schema.isFlagged ∧ value = .null) ∨
      match schema.target? with
      | some target =>
        ∃ key part, target = Reference.toComponent key ∧ Fields.get? key components = some part ∧
          ValidWithin components n part value
      | none => Satisfies (ValidWithin components n) schema value

def Valid (components : Fields) (schema : Schema) (value : Value) : Prop :=
  ∃ bound, ∀ n ≥ bound, ValidWithin components n schema value

end Schema

end SchemaTypes
