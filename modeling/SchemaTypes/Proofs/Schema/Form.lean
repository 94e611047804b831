import SchemaTypes.Schema.Reading

/-! # The forms of readings

A node that is no reference and has no custom type is read in the strongest form that applies to it.
A form has keywords of its own; beside them it asks whether the node is nullable, how it is
described, and at most for the name of its type. Nodes that agree in these say the same in the form,
whatever else they say.
-/

namespace SchemaTypes

open SchemaTypes.Json

namespace Reading

inductive Form where
  | combination (combinator : Combinator)
  | enumeration
  | object
  | array
  | scalar
deriving DecidableEq

namespace Form

def all : List Form := Combinator.all.map combination ++ [enumeration, object, array, scalar]

def applies (schema : Schema) : Form → Bool
  | combination combinator => (schema.members? combinator).isSome
  | enumeration => (schema.list? "enum").isSome
  | object => schema.isObject
  | array => schema.isArray
  | scalar => true

def combinator? : Form → Option Combinator
  | combination combinator => some combinator
  | _ => none

def keywords : Form → List String
  | combination .allOf => [Combinator.allOf.keyword]
  | combination combinator => [combinator.keyword, "discriminator"]
  | enumeration => ["enum"]
  | object => ["properties", "additionalProperties", "required"]
  | array => ["items"]
  | scalar => ["format"]

/-- Two nodes have the same type name, as far as a form asks for it: an enumeration asks whether it
is `string`, and only a node without anything stronger asks for the whole name. -/
def SameType (schema other : Schema) : Form → Prop
  | enumeration => schema.typeName? = some "string" ↔ other.typeName? = some "string"
  | scalar => schema.typeName? = other.typeName?
  | _ => True

/-- Two nodes say the same in a form. -/
structure Agree (form : Form) (schema other : Schema) : Prop where
  nullable : schema.isNullable = other.isNullable
  description : schema.description? = other.description?
  keywords : ∀ keyword ∈ form.keywords, schema.get? keyword = other.get? keyword
  type : form.SameType schema other

def reading (schema : Schema) : Form → Reading
  | combination combinator => .combination combinator ((schema.members? combinator).getD [])
  | enumeration => .enumeration ((schema.list? "enum").getD [])
  | object => .object (schema.properties?.getD []) schema.index?
  | array => .array schema.items?
  | scalar => .scalar

end Form

end Reading

namespace Schema

open Reading

def form? (schema : Schema) : Option Form := Form.all.find? (Form.applies schema)

theorem list?_congr {keyword : String} {schema other : Schema}
    (same : schema.get? keyword = other.get? keyword) :
    schema.list? keyword = other.list? keyword := by
  rw [list?, list?, same]

/-- A combination is followed in the form of its combinator. -/
theorem form?_eq (schema : Schema) :
    schema.form? = (schema.combination?.map fun found => Form.combination found.1).or
      ([.enumeration, .object, .array, .scalar].find? (Form.applies schema)) := by
  rw [form?, Form.all, List.find?_append, List.find?_map, combination?]
  congr 1
  induction Combinator.all with
  | nil => rfl
  | cons combinator rest ih =>
    rw [List.find?_cons, List.findSome?_cons, Function.comp_apply, Form.applies]
    cases schema.members? combinator with
    | none => exact ih
    | some members => rfl

theorem reading_of_form? {schema : Schema} {form : Form} (noTarget : schema.target? = none)
    (noCustom : schema.customType? = none) (strongest : schema.form? = some form) :
    schema.reading = form.reading schema := by
  rw [form?_eq] at strongest
  rw [Schema.reading, noTarget, noCustom]
  cases combined : schema.combination? with
  | some found =>
    rcases found with ⟨combinator, members⟩
    rw [combined] at strongest
    cases strongest
    have read : schema.reading = .combination combinator members := by
      rw [Schema.reading, noTarget, noCustom, combined]
    dsimp only
    rw [Form.reading, reading_members read, Option.getD_some]
  | none =>
    rw [combined] at strongest
    simp only [Option.map_none, Option.none_or, List.find?_cons, Form.applies] at strongest
    cases listed : schema.list? "enum" with
    | some values =>
      rw [listed] at strongest
      cases strongest
      dsimp only
      rw [Form.reading, listed, Option.getD_some]
    | none =>
      rw [listed] at strongest
      cases object : schema.isObject with
      | true =>
        rw [object] at strongest
        cases strongest
        rfl
      | false =>
        rw [object] at strongest
        cases array : schema.isArray with
        | true =>
          rw [array] at strongest
          cases strongest
          rfl
        | false =>
          rw [array] at strongest
          cases strongest
          rfl

end Schema

/-- Nodes that say the same in a form are read as the same in it. -/
theorem Reading.Form.Agree.reading {form : Form} {schema other : Schema}
    (agree : form.Agree schema other) : form.reading schema = form.reading other := by
  have same := agree.keywords
  cases form with
  | combination combinator =>
    have members : schema.members? combinator = other.members? combinator :=
      Schema.list?_congr (same _ (by cases combinator <;> exact List.mem_cons_self))
    rw [Form.reading, Form.reading, members]
  | enumeration =>
    rw [Form.reading, Form.reading, Schema.list?_congr (same _ List.mem_cons_self)]
  | object =>
    have properties : schema.properties? = other.properties? := by
      rw [Schema.properties?, Schema.properties?, same "properties" (by decide)]
    have index : schema.index? = other.index? := by
      rw [Schema.index?, Schema.index?, same "additionalProperties" (by decide)]
    rw [Form.reading, Form.reading, properties, index]
  | array =>
    rw [Form.reading, Form.reading, Schema.items?, Schema.items?, same "items" (by decide)]
  | scalar => rfl

end SchemaTypes
