import SchemaTypes.Json.Value
import SchemaTypes.Text.Blank

/-! # Schema nodes

A node of an OpenAPI schema is any JSON value. What it says is read off its fields; a field of an
unexpected kind counts as missing, so that every value has an answer to every question.
-/

namespace SchemaTypes

open SchemaTypes.Json

/-- A node of a schema as it stands in the document. -/
abbrev Schema := Value

/-- The keywords that combine schemas, in the order in which they are looked for. -/
inductive Combinator where
  | oneOf
  | allOf
  | anyOf
deriving DecidableEq

namespace Combinator

def keyword : Combinator → String
  | oneOf => "oneOf"
  | allOf => "allOf"
  | anyOf => "anyOf"

def all : List Combinator := [oneOf, allOf, anyOf]

end Combinator

namespace Schema

/-- The name under `type`; of a list of names the first other than `null`, or `null` if it has
no other. -/
def typeName? (schema : Schema) : Option String :=
  match schema.get? "type" with
  | some (.string name) => some name
  | some (.array types) =>
    let names := types.filterMap Value.string?
    (names.find? (· != "null")).or (names.find? (· == "null"))
  | _ => none

/-- Whether `null` is an instance: by the flag `nullable`, or by a list of types that names it. -/
def isNullable (schema : Schema) : Bool :=
  (match schema.get? "nullable" with
    | some (.bool true) => true
    | _ => false) ||
  (match schema.get? "type" with
    | some (.array types) => types.any fun type => type.string? == some "null"
    | _ => false)

def properties? (schema : Schema) : Option Fields :=
  match schema.get? "properties" with
  | some (.object (field :: fields)) => some (field :: fields)
  | _ => none

def list? (keyword : String) (schema : Schema) : Option (List Value) :=
  match schema.get? keyword with
  | some (.array (item :: items)) => some (item :: items)
  | _ => none

def members? (combinator : Combinator) (schema : Schema) : Option (List Schema) :=
  schema.list? combinator.keyword

/-- Whether the node describes objects: by its type, or by properties. -/
def isObject (schema : Schema) : Bool :=
  schema.typeName? == some "object" || schema.properties?.isSome

/-- Whether the node describes arrays: by its type, or by `items` of any kind. -/
def isArray (schema : Schema) : Bool :=
  schema.typeName? == some "array" || (schema.get? "items").isSome

/-- The keys under which a type of its own can be given, the stronger one first. -/
def customTypeKeys : List String := ["x-ts-type", "x-custom-type"]

/-- The type given in place of the described one: the first text that is not blank, trimmed. -/
def customType? (schema : Schema) : Option String :=
  ((customTypeKeys.filterMap fun key => schema.text? key).map Text.trimmed).find? (· != "")

def target? (schema : Schema) : Option String := schema.text? "$ref"

def description? (schema : Schema) : Option String := schema.text? "description"

def format? (schema : Schema) : Option String := schema.text? "format"

def required (schema : Schema) : List String :=
  match schema.get? "required" with
  | some (.array names) => names.filterMap Value.string?
  | _ => []

def combination? (schema : Schema) : Option (Combinator × List Schema) :=
  Combinator.all.findSome? fun combinator =>
    (schema.members? combinator).map fun members => (combinator, members)

/-- Whether a combinator stands beside properties, of which only one can be followed. -/
def mixesProperties (schema : Schema) : Bool :=
  schema.properties?.isSome && schema.combination?.isSome

/-! ## Parts are smaller than the whole -/

theorem sizeOf_fields_get? {name : String} {fields : Fields} {value : Value}
    (found : Fields.get? name fields = some value) : sizeOf value < sizeOf fields := by
  induction fields with
  | nil => simp [Fields.get?] at found
  | cons field rest ih =>
    rcases field with ⟨key, first⟩
    simp only [Fields.get?] at found
    split at found
    · simp only [Option.some.injEq] at found
      subst found
      simp
      omega
    · have := ih found
      simp
      omega

theorem sizeOf_get? {name : String} {schema part : Value} (found : schema.get? name = some part) :
    sizeOf part < sizeOf schema := by
  cases schema <;> simp only [Value.get?, reduceCtorEq] at found
  have := sizeOf_fields_get? found
  simp
  omega

theorem sizeOf_list? {keyword : String} {schema : Schema} {items : List Value}
    (found : schema.list? keyword = some items) : sizeOf items < sizeOf schema := by
  simp only [list?] at found
  split at found
  · next h =>
    simp only [Option.some.injEq] at found
    have := sizeOf_get? h
    subst found
    simp at this ⊢
    omega
  · simp at found

theorem sizeOf_combination? {schema : Schema} {combinator : Combinator} {members : List Schema}
    (found : schema.combination? = some (combinator, members)) :
    sizeOf members < sizeOf schema := by
  rcases List.exists_of_findSome?_eq_some found with ⟨c, _, h⟩
  simp only [Option.map_eq_some_iff, Prod.mk.injEq] at h
  rcases h with ⟨ms, h, rfl, rfl⟩
  exact sizeOf_list? h

end Schema

end SchemaTypes
