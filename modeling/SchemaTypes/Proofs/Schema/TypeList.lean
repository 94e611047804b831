import Mathlib.Data.List.Basic
import SchemaTypes.Build.Node

/-! # Lists of types

Of a list under `type` a node takes two things: whether the list names `null`, and the first other
name in it. A list with the same names in another order is as good if the same other name comes
first, and where that name is not asked for.
-/

namespace SchemaTypes

open SchemaTypes.Json

def leadingType? (types : List String) : Option String := types.find? (· != "null")

theorem leadingType?_ne_null {types : List String} {name : String}
    (leading : leadingType? types = some name) : name ≠ "null" := by
  simpa using List.find?_some leading

/-- No list has a leading name if another one with the same names has none. -/
theorem leadingType?_eq_none_iff_of_perm {types others : List String} (perm : types.Perm others) :
    leadingType? types = none ↔ leadingType? others = none := by
  rw [leadingType?, leadingType?, List.find?_eq_none, List.find?_eq_none]
  simp only [perm.mem_iff]

inductive ValueKind where
  | objects
  | arrays
  | strings
  | numbers
  | booleans
  | anything
deriving DecidableEq

namespace ValueKind

/-- The values of a built-in type that has a name in schemas, other than `null`. -/
def ofPrimitive : Primitive → ValueKind
  | .string => strings
  | .number => numbers
  | .boolean => booleans
  | _ => anything

def has : ValueKind → Value → Bool
  | objects, .object _ => true
  | arrays, .array _ => true
  | strings, .string _ => true
  | numbers, .number _ => true
  | booleans, .bool _ => true
  | anything, _ => true
  | _, _ => false

/-- Values that tell the kinds apart. -/
def samples : List Value := [.array [], .string "", .number (.whole 0), .bool true]

theorem eq_of_samples {kind other : ValueKind}
    (same : ∀ value ∈ samples, kind.has value = other.has value) : kind = other := by
  have array := same (.array []) (by simp [samples])
  have string := same (.string "") (by simp [samples])
  have number := same (.number (.whole 0)) (by simp [samples])
  have bool := same (.bool true) (by simp [samples])
  cases kind <;> cases other <;> first | rfl | simp [has] at array string number bool

end ValueKind

namespace Schema

/-- Two nodes say the same under every keyword but `type`. -/
def SameButType (schema other : Schema) : Prop :=
  ∀ keyword, keyword ≠ "type" → other.get? keyword = schema.get? keyword

/-- Two nodes say the same, but for the order of the names in their lists of types. -/
structure Reordered (types others : List String) (schema other : Schema) : Prop where
  listed : schema.get? "type" = some (.array (types.map .string))
  relisted : other.get? "type" = some (.array (others.map .string))
  perm : types.Perm others
  rest : SameButType schema other

/-- A node is read by its type: nothing stands in it that is stronger. -/
structure GoesByType (schema : Schema) : Prop where
  target : schema.target? = none
  custom : schema.customType? = none
  combination : schema.combination? = none
  enumeration : schema.list? "enum" = none
  properties : schema.properties? = none

/-- The values that a type name stands for in a node that is read by it. Items make every name but
`object` one of arrays, and a format can narrow a built-in type. -/
def valuesNamed (schema : Schema) (name : String) : ValueKind :=
  if name = "object" then .objects
  else if name = "array" ∨ (schema.get? "items").isSome then .arrays
  else match Builder.primitive? name with
    | some primitive => .ofPrimitive (Builder.narrowed schema.format? primitive)
    | none => .anything

variable {schema other : Schema} {types others : List String}

/-! ## What a list says -/

theorem find?_null (types : List String) :
    types.find? (· == "null") = if "null" ∈ types then some "null" else none := by
  cases found : types.find? (· == "null") with
  | none =>
    rw [List.find?_eq_none] at found
    rw [if_neg fun mem => found "null" mem rfl]
  | some name =>
    obtain rfl : name = "null" := by simpa using List.find?_some found
    rw [if_pos (List.mem_of_find?_eq_some found)]

/-- A list goes by its leading type, and by `null` if it names nothing else. -/
theorem typeName?_listed (listed : schema.get? "type" = some (.array (types.map .string))) :
    schema.typeName? = (leadingType? types).or (if "null" ∈ types then some "null" else none) := by
  have names : (types.map Value.string).filterMap Value.string? = types := by
    rw [List.filterMap_map]
    exact List.filterMap_some
  rw [typeName?, listed]
  dsimp only
  rw [names, find?_null, leadingType?]

theorem typeName?_of_leading {name : String}
    (listed : schema.get? "type" = some (.array (types.map .string)))
    (leading : leadingType? types = some name) : schema.typeName? = some name := by
  rw [typeName?_listed listed, leading, Option.some_or]

/-! ## What the type does not decide -/

namespace SameButType

variable (same : SameButType schema other)
include same

theorem text? {keyword : String} (noType : keyword ≠ "type") :
    other.text? keyword = schema.text? keyword := by
  rw [Value.text?, same keyword noType, Value.text?]

theorem list? {keyword : String} (noType : keyword ≠ "type") :
    other.list? keyword = schema.list? keyword := by
  rw [Schema.list?, same keyword noType, Schema.list?]

theorem target? : other.target? = schema.target? := same.text? (by decide)

theorem description? : other.description? = schema.description? := same.text? (by decide)

theorem format? : other.format? = schema.format? := same.text? (by decide)

theorem customType? : other.customType? = schema.customType? := by
  have noType : ∀ key ∈ customTypeKeys, key ≠ "type" := by decide
  rw [Schema.customType?, Schema.customType?,
    List.filterMap_congr fun key mem => same.text? (noType key mem)]

theorem combination? : other.combination? = schema.combination? := by
  have members (combinator : Combinator) :
      other.members? combinator = schema.members? combinator :=
    same.list? (by cases combinator <;> decide)
  simp only [Schema.combination?, members]

theorem properties? : other.properties? = schema.properties? := by
  rw [Schema.properties?, same "properties" (by decide), Schema.properties?]

theorem index? : other.index? = schema.index? := by
  rw [Schema.index?, same "additionalProperties" (by decide), Schema.index?]

theorem items? : other.items? = schema.items? := by
  rw [Schema.items?, same "items" (by decide), Schema.items?]

theorem required : other.required = schema.required := by
  rw [Schema.required, same "required" (by decide), Schema.required]

theorem goesByType (byType : schema.GoesByType) : other.GoesByType where
  target := same.target?.trans byType.target
  custom := same.customType?.trans byType.custom
  combination := same.combination?.trans byType.combination
  enumeration := (same.list? (by decide)).trans byType.enumeration
  properties := same.properties?.trans byType.properties

theorem valuesNamed (name : String) : other.valuesNamed name = schema.valuesNamed name := by
  rw [Schema.valuesNamed, Schema.valuesNamed, same "items" (by decide), same.format?]

/-- Nodes with the same type name are read as the same. -/
theorem reading (typeName : other.typeName? = schema.typeName?) :
    other.reading = schema.reading := by
  have object : other.isObject = schema.isObject := by
    rw [isObject, isObject, typeName, same.properties?]
  have array : other.isArray = schema.isArray := by
    rw [isArray, isArray, typeName, same "items" (by decide)]
  simp only [Schema.reading, same.target?, same.customType?, same.combination?,
    same.list? (by decide : "enum" ≠ "type"), same.properties?, same.index?, same.items?, object,
    array]

/-- A node that is not read by its type is read as the same whatever its type is. -/
theorem reading_of_not (notByType : ¬ schema.GoesByType) : other.reading = schema.reading := by
  simp only [Schema.reading, same.target?, same.customType?, same.combination?,
    same.list? (by decide : "enum" ≠ "type"), same.properties?, same.index?, same.items?]
  cases target : schema.target? with
  | some _ => rfl
  | none =>
    cases custom : schema.customType? with
    | some _ => rfl
    | none =>
      cases combination : schema.combination? with
      | some _ => rfl
      | none =>
        cases enumeration : schema.list? "enum" with
        | some _ => rfl
        | none =>
          have some : schema.properties?.isSome := by
            rw [Option.isSome_iff_ne_none]
            exact fun properties =>
              notByType ⟨target, custom, combination, enumeration, properties⟩
          have object : schema.isObject := by rw [isObject, some, Bool.or_true]
          have object' : other.isObject := by rw [isObject, same.properties?, some, Bool.or_true]
          simp only [object, object', if_true]

end SameButType

/-! ## Another order -/

namespace Reordered

variable (reordered : Reordered types others schema other)
include reordered

theorem isNullable : other.isNullable = schema.isNullable := by
  rw [Schema.isNullable, Schema.isNullable, reordered.rest "nullable" (by decide),
    reordered.relisted, reordered.listed]
  dsimp only
  rw [(reordered.perm.map Value.string).any_eq]

/-- The order matters only as far as it decides which name leads. -/
theorem typeName? (leading : leadingType? types = leadingType? others) :
    other.typeName? = schema.typeName? := by
  rw [typeName?_listed reordered.relisted, typeName?_listed reordered.listed, leading]
  simp only [reordered.perm.mem_iff]

end Reordered

end Schema

end SchemaTypes
