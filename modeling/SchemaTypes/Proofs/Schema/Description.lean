import Mathlib.Data.List.Basic
import SchemaTypes.Schema.Reading

/-! # Schemas without their descriptions

A description is a field of a schema node, not every field of that name: a property can have the
name as well, and the values of an enumeration or an example are data. What stands under a keyword
decides what is a node.
-/

namespace SchemaTypes

open SchemaTypes.Json

inductive Content where
  | schema
  /-- A list of schemas. -/
  | list
  /-- A schema for each of some names. -/
  | map
  | data
deriving DecidableEq

def Content.under : String → Content
  | "oneOf" | "allOf" | "anyOf" | "prefixItems" => .list
  | "properties" | "patternProperties" | "dependentSchemas" | "$defs" | "definitions" => .map
  | "items" | "additionalProperties" | "additionalItems" | "not" | "if" | "then" | "else"
  | "contains" | "propertyNames" | "unevaluatedItems" | "unevaluatedProperties" => .schema
  | _ => .data

def Reading.map (f : Schema → Schema) : Reading → Reading
  | .combination combinator members => .combination combinator (members.map f)
  | .object properties index =>
    .object (properties.map fun entry => (entry.1, f entry.2)) (index.map (Option.map f))
  | .array items => .array (items.map f)
  | reading => reading

/-- A reading with another schema at each step in place of the part there. -/
def Reading.mapParts (f : Step → Schema → Schema) : Reading → Reading
  | .combination combinator members =>
    .combination combinator (members.mapIdx fun place member => f (.member combinator place) member)
  | .object properties index =>
    .object (properties.map fun entry => (entry.1, f (.property entry.1) entry.2))
      (index.map (Option.map (f .index)))
  | .array items => .array (items.map (f .item))
  | reading => reading

theorem Reading.parts_mapParts (f : Step → Schema → Schema) (reading : Reading) :
    (reading.mapParts f).parts = reading.parts.map fun part => (part.1, f part.1 part.2) := by
  cases reading with
  | combination combinator members => apply List.ext_getElem <;> simp [mapParts, parts]
  | object properties index =>
    rcases index with _ | _ | schema <;> simp [mapParts, parts]
  | array items => cases items <;> rfl
  | _ => rfl

theorem Reading.mapParts_const (f : Schema → Schema) (reading : Reading) :
    reading.mapParts (fun _ => f) = reading.map f := by
  cases reading with
  | combination combinator members =>
    exact congrArg (combination combinator) (List.ext_getElem (by simp) (by simp))
  | _ => rfl

theorem Reading.mapParts_id (reading : Reading) :
    reading.mapParts (fun _ schema => schema) = reading := by
  rw [mapParts_const]
  cases reading <;> simp [map]

theorem Reading.parts_map (f : Schema → Schema) (reading : Reading) :
    (reading.map f).parts = reading.parts.map fun part => (part.1, f part.2) := by
  rw [← mapParts_const, parts_mapParts]

namespace Schema

mutual

def undescribed : Schema → Schema
  | .object fields => .object (fieldsUndescribed fields)
  | schema => schema

def fieldsUndescribed : Fields → Fields
  | [] => []
  | (name, value) :: rest =>
    if name = "description" then fieldsUndescribed rest
    else
      match Content.under name with
      | .schema => (name, undescribed value) :: fieldsUndescribed rest
      | .list => (name, listUndescribed value) :: fieldsUndescribed rest
      | .map => (name, mapUndescribed value) :: fieldsUndescribed rest
      | .data => (name, value) :: fieldsUndescribed rest

def listUndescribed : Value → Value
  | .array items => .array (itemsUndescribed items)
  | value => value

def itemsUndescribed : List Value → List Value
  | [] => []
  | item :: items => undescribed item :: itemsUndescribed items

def mapUndescribed : Value → Value
  | .object entries => .object (entriesUndescribed entries)
  | value => value

def entriesUndescribed : Fields → Fields
  | [] => []
  | (name, schema) :: rest => (name, undescribed schema) :: entriesUndescribed rest

end

theorem itemsUndescribed_eq (items : List Value) :
    itemsUndescribed items = items.map undescribed := by
  induction items with
  | nil => rfl
  | cons item items ih => rw [itemsUndescribed, ih, List.map_cons]

theorem entriesUndescribed_eq (entries : Fields) :
    entriesUndescribed entries = entries.map fun entry => (entry.1, undescribed entry.2) := by
  induction entries with
  | nil => rfl
  | cons entry rest ih => rw [entriesUndescribed, ih, List.map_cons]

def contentUndescribed : Content → Value → Value
  | .schema => undescribed
  | .list => listUndescribed
  | .map => mapUndescribed
  | .data => id

theorem fieldsUndescribed_cons (name : String) (value : Value) (rest : Fields) :
    fieldsUndescribed ((name, value) :: rest) =
      if name = "description" then fieldsUndescribed rest
      else (name, contentUndescribed (Content.under name) value) :: fieldsUndescribed rest := by
  rw [fieldsUndescribed]
  split
  · rfl
  · split <;> next same => rw [same]; rfl

theorem get?_fieldsUndescribed (name : String) (fields : Fields) :
    Fields.get? name (fieldsUndescribed fields) = if name = "description" then none else
      (Fields.get? name fields).map (contentUndescribed (Content.under name)) := by
  induction fields with
  | nil => simp [fieldsUndescribed, Fields.get?]
  | cons field rest ih =>
    rcases field with ⟨key, value⟩
    rw [fieldsUndescribed_cons, Fields.get?]
    by_cases here : key = name
    · subst here
      rw [if_pos rfl]
      split
      · next isDescription => rw [ih, if_pos isDescription]
      · rw [Fields.get?, if_pos rfl, Option.map_some]
    · rw [if_neg here]
      split
      · exact ih
      · rw [Fields.get?, if_neg here, ih]

theorem get?_undescribed (name : String) (schema : Schema) :
    schema.undescribed.get? name = if name = "description" then none else
      (schema.get? name).map (contentUndescribed (Content.under name)) := by
  cases schema with
  | object fields => exact get?_fieldsUndescribed name fields
  | _ => simp [undescribed, Value.get?]

/-! ## What a node says -/

theorem get?_undescribed_data {name : String} (isData : Content.under name = .data)
    (other : name ≠ "description") (schema : Schema) :
    schema.undescribed.get? name = schema.get? name := by
  rw [get?_undescribed, if_neg other, isData]
  exact Option.map_id'

theorem text?_undescribed_data {name : String} (isData : Content.under name = .data)
    (other : name ≠ "description") (schema : Schema) :
    schema.undescribed.text? name = schema.text? name := by
  rw [Value.text?, get?_undescribed_data isData other, Value.text?]

@[simp] theorem description?_undescribed (schema : Schema) :
    schema.undescribed.description? = none := by
  rw [description?, Value.text?, get?_undescribed, if_pos rfl, Option.bind_none]

@[simp] theorem target?_undescribed (schema : Schema) :
    schema.undescribed.target? = schema.target? :=
  text?_undescribed_data (by decide) (by decide) schema

@[simp] theorem format?_undescribed (schema : Schema) :
    schema.undescribed.format? = schema.format? :=
  text?_undescribed_data (by decide) (by decide) schema

@[simp] theorem typeName?_undescribed (schema : Schema) :
    schema.undescribed.typeName? = schema.typeName? := by
  rw [typeName?, get?_undescribed_data (by decide) (by decide), typeName?]

@[simp] theorem isNullable_undescribed (schema : Schema) :
    schema.undescribed.isNullable = schema.isNullable := by
  rw [isNullable, get?_undescribed_data (by decide) (by decide),
    get?_undescribed_data (by decide) (by decide), isNullable]

@[simp] theorem required_undescribed (schema : Schema) :
    schema.undescribed.required = schema.required := by
  rw [required, get?_undescribed_data (by decide) (by decide), required]

@[simp] theorem customType?_undescribed (schema : Schema) :
    schema.undescribed.customType? = schema.customType? := by
  have isData : ∀ key ∈ customTypeKeys, Content.under key = .data ∧ key ≠ "description" := by
    decide
  have each : ∀ key ∈ customTypeKeys, schema.undescribed.text? key = schema.text? key :=
    fun key mem => text?_undescribed_data (isData key mem).1 (isData key mem).2 schema
  have same : customTypeKeys.filterMap (fun key => schema.undescribed.text? key) =
      customTypeKeys.filterMap fun key => schema.text? key := List.filterMap_congr each
  rw [customType?, same, customType?]

@[simp] theorem enum_undescribed (schema : Schema) :
    schema.undescribed.list? "enum" = schema.list? "enum" := by
  rw [list?, get?_undescribed_data (by decide) (by decide), list?]

theorem members?_undescribed (combinator : Combinator) (schema : Schema) :
    schema.undescribed.members? combinator =
      (schema.members? combinator).map (List.map undescribed) := by
  have isList : Content.under combinator.keyword = .list := by cases combinator <;> decide
  have other : combinator.keyword ≠ "description" := by cases combinator <;> decide
  rw [members?, members?, list?, list?, get?_undescribed, if_neg other, isList]
  rcases schema.get? combinator.keyword with _ | _ | _ | _ | _ | items | _
  case some.array =>
    rw [Option.map_some, contentUndescribed, listUndescribed, itemsUndescribed_eq]
    cases items <;> rfl
  all_goals rfl

theorem properties?_undescribed (schema : Schema) :
    schema.undescribed.properties? =
      schema.properties?.map (List.map fun entry => (entry.1, undescribed entry.2)) := by
  have isMap : Content.under "properties" = .map := by decide
  rw [properties?, properties?, get?_undescribed, if_neg (by decide), isMap]
  rcases schema.get? "properties" with _ | _ | _ | _ | _ | _ | fields
  case some.object =>
    rw [Option.map_some, contentUndescribed, mapUndescribed, entriesUndescribed_eq]
    cases fields <;> rfl
  all_goals rfl

theorem index?_undescribed (schema : Schema) :
    schema.undescribed.index? = schema.index?.map (Option.map undescribed) := by
  have isSchema : Content.under "additionalProperties" = .schema := by decide
  rw [index?, index?, get?_undescribed, if_neg (by decide), isSchema]
  rcases schema.get? "additionalProperties" with _ | _ | value | _ | _ | _ | _
  case some.bool => cases value <;> rfl
  all_goals rfl

theorem items?_undescribed (schema : Schema) :
    schema.undescribed.items? = schema.items?.map undescribed := by
  have isSchema : Content.under "items" = .schema := by decide
  rw [items?, items?, get?_undescribed, if_neg (by decide), isSchema]
  rcases schema.get? "items" with _ | _ | _ | _ | _ | _ | _ <;> rfl

/-! ## Readings -/

theorem combination?_undescribed (schema : Schema) :
    schema.undescribed.combination? =
      schema.combination?.map fun found => (found.1, found.2.map undescribed) := by
  rw [combination?, combination?, List.map_findSome?]
  congr 1
  funext combinator
  rw [members?_undescribed, Function.comp_apply]
  cases schema.members? combinator <;> rfl

theorem isObject_undescribed (schema : Schema) :
    schema.undescribed.isObject = schema.isObject := by
  rw [isObject, isObject, typeName?_undescribed, properties?_undescribed, Option.isSome_map]

theorem isArray_undescribed (schema : Schema) : schema.undescribed.isArray = schema.isArray := by
  rw [isArray, isArray, typeName?_undescribed, get?_undescribed, if_neg (by decide),
    Option.isSome_map]

/-- A node is read as the same without its descriptions, and so are its parts. -/
theorem reading_undescribed (schema : Schema) :
    schema.undescribed.reading = schema.reading.map undescribed := by
  rw [reading, reading, target?_undescribed, customType?_undescribed, combination?_undescribed,
    enum_undescribed, isObject_undescribed, isArray_undescribed, properties?_undescribed,
    index?_undescribed, items?_undescribed]
  rcases schema.target? with _ | target
  · rcases schema.customType? with _ | text
    · rcases schema.combination? with _ | ⟨combinator, members⟩
      · rcases schema.list? "enum" with _ | values
        · dsimp only [Option.map_none]
          split
          · cases schema.properties? <;> rfl
          · split <;> rfl
        · rfl
      · rfl
    · rfl
  · rfl

end Schema

end SchemaTypes
