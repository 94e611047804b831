import SchemaTypes.Json.Value

/-! # Type trees

The TypeScript types that are written out. A node is a kind of type together with what can be said
of a type of any kind: its name if it can be declared, its description, and whether `null` belongs
to it.
-/

namespace SchemaTypes

open SchemaTypes.Json

inductive Primitive where
  | string
  | number
  | boolean
  | null
  | any
  | unknown
  | void
  | never
deriving DecidableEq

namespace Primitive

def text : Primitive → String
  | string => "string"
  | number => "number"
  | boolean => "boolean"
  | null => "null"
  | any => "any"
  | unknown => "unknown"
  | void => "void"
  | never => "never"

/-- Every built-in type, in the order in which messages list them. -/
def all : List Primitive := [string, number, boolean, null, any, unknown, void, never]

def ofText? (name : String) : Option Primitive := all.find? fun primitive => primitive.text == name

end Primitive

/-- How the members of a union are told apart: by a property, and which of its values stands for
which reference. -/
structure Discriminator where
  propertyName : String
  mapping : List (String × String)
deriving DecidableEq

structure Attributes where
  name : Option String := none
  description : Option String := none
  nullable : Bool := false
deriving DecidableEq

/-- The kinds of types, over the types they are built from. -/
inductive Kind (α : Type) where
  | primitive (primitive : Primitive)
  /-- A single value. -/
  | literal (value : Value)
  /-- A type that is written as it was given. -/
  | custom (text : String)
  /-- A type that is declared elsewhere in the output. -/
  | reference (name : String)
  | array (item : α)
  /-- One of several values; the flag tells that they are meant to be strings. -/
  | enumeration (values : List Value) (ofStrings : Bool)
  /-- An object with its properties in order, the names of those that must be there, and the type
  of all further ones. -/
  | interface (properties : List (String × α)) (required : List String) (index : Option α)
  | union (members : List α) (discriminator : Option Discriminator)
  | intersection (members : List α)

inductive TypeTree where
  | node (attributes : Attributes) (kind : Kind TypeTree)

namespace TypeTree

/-- A type of some kind of which nothing else is said. -/
def plain (kind : Kind TypeTree) : TypeTree := .node {} kind

def attributes : TypeTree → Attributes
  | .node attributes _ => attributes

def kind : TypeTree → Kind TypeTree
  | .node _ kind => kind

def name (tree : TypeTree) : Option String := tree.attributes.name

def description (tree : TypeTree) : Option String := tree.attributes.description

def nullable (tree : TypeTree) : Bool := tree.attributes.nullable

/-- Change what is said of a type and leave its kind. -/
def mapAttributes (f : Attributes → Attributes) : TypeTree → TypeTree
  | .node attributes kind => .node (f attributes) kind

def named (name : String) : TypeTree → TypeTree :=
  mapAttributes fun attributes => { attributes with name := some name }

def describedAs (description : String) : TypeTree → TypeTree :=
  mapAttributes fun attributes => { attributes with description := some description }

def withNullable (nullable : Bool) : TypeTree → TypeTree :=
  mapAttributes fun attributes => { attributes with nullable := nullable }

def unknown : TypeTree := plain (.primitive .unknown)

instance : Inhabited TypeTree := ⟨unknown⟩

end TypeTree

end SchemaTypes
