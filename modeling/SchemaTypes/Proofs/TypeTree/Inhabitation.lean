import SchemaTypes.TypeTree.Basic
import SchemaTypes.Proofs.Json.Sameness

/-! # The values of a type

Which values inhabit a type, given the declared types that references mean. Nothing is known of a
custom type, so that every value counts as one of it. What is said of a type as a whole does not
matter but for `null`.
-/

namespace SchemaTypes

open SchemaTypes.Json

def Primitive.Holds (value : Value) : Primitive → Prop
  | string => ∃ text, value = .string text
  | number => ∃ n, value = .number n
  | boolean => ∃ b, value = .bool b
  | null => value = .null
  | any => True
  | unknown => True
  | void => False
  | never => False

namespace TypeTree

inductive Inhabits (roots : List TypeTree) : TypeTree → Value → Prop
  | null {attributes : Attributes} {kind : Kind TypeTree} (nullable : attributes.nullable = true) :
      Inhabits roots (.node attributes kind) .null
  | primitive {attributes : Attributes} {primitive : Primitive} {value : Value}
      (holds : primitive.Holds value) :
      Inhabits roots (.node attributes (.primitive primitive)) value
  | literal {attributes : Attributes} {literal value : Value} (same : value.Same literal) :
      Inhabits roots (.node attributes (.literal literal)) value
  | custom {attributes : Attributes} {text : String} {value : Value} :
      Inhabits roots (.node attributes (.custom text)) value
  | reference {attributes : Attributes} {name : String} {root : TypeTree} {value : Value}
      (declared : (roots.find? fun root => root.name == some name) = some root)
      (inhabits : Inhabits roots root value) :
      Inhabits roots (.node attributes (.reference name)) value
  | array {attributes : Attributes} {type : TypeTree} {items : List Value}
      (each : ∀ item ∈ items, Inhabits roots type item) :
      Inhabits roots (.node attributes (.array type)) (.array items)
  | enumeration {attributes : Attributes} {values : List Value} {ofStrings : Bool}
      {allowed value : Value} (listed : allowed ∈ values) (same : value.Same allowed) :
      Inhabits roots (.node attributes (.enumeration values ofStrings)) value
  | interface {attributes : Attributes} {properties : List (String × TypeTree)}
      {required : List String} {index : Option TypeTree} {fields : Fields}
      (listed : ∀ name type field, (name, type) ∈ properties → (name, field) ∈ fields →
        Inhabits roots type field)
      (present : ∀ name ∈ required, name ∈ fields.map Prod.fst)
      (further : ∀ name field, (name, field) ∈ fields → name ∉ properties.map Prod.fst →
        ∀ type, index = some type → Inhabits roots type field) :
      Inhabits roots (.node attributes (.interface properties required index)) (.object fields)
  | union {attributes : Attributes} {members : List TypeTree} {discriminator : Option Discriminator}
      {member : TypeTree} {value : Value} (listed : member ∈ members)
      (inhabits : Inhabits roots member value) :
      Inhabits roots (.node attributes (.union members discriminator)) value
  | intersection {attributes : Attributes} {members : List TypeTree} {value : Value}
      (each : ∀ member ∈ members, Inhabits roots member value) :
      Inhabits roots (.node attributes (.intersection members)) value

variable {roots : List TypeTree}

theorem inhabits_unknown (value : Value) : Inhabits roots unknown value :=
  .primitive trivial

/-- Only `null` depends on what is said of a type as a whole. -/
theorem Inhabits.congr {attributes others : Attributes} {kind : Kind TypeTree} {value : Value}
    (h : Inhabits roots (.node attributes kind) value)
    (nullable : attributes.nullable = true → others.nullable = true) :
    Inhabits roots (.node others kind) value := by
  cases h with
  | null flag => exact .null (nullable flag)
  | primitive holds => exact .primitive holds
  | literal same => exact .literal same
  | custom => exact .custom
  | reference declared inhabits => exact .reference declared inhabits
  | array each => exact .array each
  | enumeration listed same => exact .enumeration listed same
  | interface listed present further => exact .interface listed present further
  | union listed inhabits => exact .union listed inhabits
  | intersection each => exact .intersection each

/-- A type that says nothing of itself has no more values than any other of its kind. -/
theorem Inhabits.of_plain {attributes : Attributes} {kind : Kind TypeTree} {value : Value}
    (h : Inhabits roots (plain kind) value) : Inhabits roots (.node attributes kind) value := by
  apply h.congr
  intro flag
  cases flag

theorem Inhabits.of_same {tree other : TypeTree} {value : Value} (h : Inhabits roots tree value)
    (kind : other.kind = tree.kind) (nullable : other.nullable = tree.nullable) :
    Inhabits roots other value := by
  rcases tree with ⟨attributes, _⟩
  rcases other with ⟨others, _⟩
  cases kind
  apply h.congr
  intro flag
  exact nullable.trans flag

end TypeTree

end SchemaTypes
