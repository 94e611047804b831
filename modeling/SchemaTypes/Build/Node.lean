import SchemaTypes.Build.Context
import SchemaTypes.TypeTree.Basic
import SchemaTypes.Schema.Reading
import SchemaTypes.Schema.Reference
import SchemaTypes.Naming

/-! # The type of a schema node

The type of a node follows its reading. A reference is never followed; only the description of what
it points at is taken over where the node has none.
-/

namespace SchemaTypes

open SchemaTypes.Json

/-- What a type depends on apart from its schema: the affixes of declared names, and the component
schemas that lend their descriptions. -/
structure Builder where
  affixes : Affixes
  components : Fields

namespace Builder

def reference (builder : Builder) (schema : Schema) (target : String) : TypeTree :=
  let inherited := (Reference.component? target).bind fun key =>
    (Fields.get? key builder.components).bind Schema.description?
  let nullable := (schema.get? "nullable").bind Value.bool? == some true
  .node { description := schema.description?.or inherited, nullable := nullable }
    (.reference (builder.affixes.typeName (Reference.name target)))

def primitive? : String → Option Primitive
  | "string" => some .string
  | "number" => some .number
  | "integer" => some .number
  | "boolean" => some .boolean
  | "null" => some .null
  | _ => none

/-- A built-in type under a format: dates are strings and sized numbers are numbers. -/
def narrowed (format : Option String) (primitive : Primitive) : Primitive :=
  match format with
  | some "date" | some "date-time" => .string
  | some "int32" | some "int64" | some "float" | some "double" => .number
  | _ => primitive

/-- The type of a node that only has a type name, or not even that. A name that is not built in is
a custom type. -/
def scalar (schema : Schema) : Building (Kind TypeTree) :=
  match schema.typeName? with
  | none => return .primitive .unknown
  | some name =>
    if name = "" then return .primitive .unknown else
      match primitive? name with
      | some primitive => return .primitive (narrowed schema.format? primitive)
      | none => .naming name (.custom name)

def enumeration (schema : Schema) (values : List Value) : Kind TypeTree :=
  .enumeration values
    (schema.typeName? == some "string" || values.all fun value => value.string?.isSome)

def discriminator? (schema : Schema) : Option Discriminator :=
  (schema.get? "discriminator").bind fun found =>
    (found.text? "propertyName").map fun propertyName =>
      let mapping := ((found.get? "mapping").bind Value.fields?).getD []
      ⟨propertyName, mapping.filterMap fun entry => entry.2.string?.map fun text => (entry.1, text)⟩

def combined (schema : Schema) (combinator : Combinator) (members : List TypeTree) :
    Kind TypeTree :=
  match combinator with
  | .allOf => .intersection members
  | _ => .union members (discriminator? schema)

/-- A kind of type with the description of its node. `null` needs no second mention in the type
`null`. -/
def annotated (schema : Schema) (kind : Kind TypeTree) : TypeTree :=
  let isNull := match kind with
    | .primitive .null => true
    | _ => false
  .node { description := schema.description?, nullable := schema.isNullable && !isNull } kind

mutual

def build (builder : Builder) (schema : Schema) : Building TypeTree :=
  match read : schema.reading with
  | .reference target => return builder.reference schema target
  | .custom text => .naming text (annotated schema (.custom text))
  | .combination combinator members => do
    have := Schema.sizeOf_combination? (Schema.reading_combination read)
    if schema.properties?.isSome then modify (Context.report combinator)
    let trees ← builder.members combinator 0 members
    return annotated schema (combined schema combinator trees)
  | .enumeration values => return annotated schema (enumeration schema values)
  | .object properties index => do
    have := (Schema.reading_object read).2.1 ▸ schema.sizeOf_properties?
    have := (Schema.reading_object read).2.2 ▸ schema.sizeOf_index?
    let trees ← builder.properties properties
    let tree ← builder.index index
    return annotated schema (.interface trees schema.required tree)
  | .array items => do
    have := (Schema.reading_array read).2.2 ▸ schema.sizeOf_items?
    let tree ← builder.part .item items
    return annotated schema (.array tree)
  | .scalar => annotated schema <$> scalar schema
termination_by 3 * sizeOf schema + 1
decreasing_by all_goals omega

/-- The types of the members of a combination, the first of them with the number `place`. -/
def members (builder : Builder) (combinator : Combinator) (place : Nat) :
    List Schema → Building (List TypeTree)
  | [] => return []
  | member :: rest => do
    let tree ← .inside (Step.member combinator place).pointer (builder.build member)
    let trees ← builder.members combinator (place + 1) rest
    return tree :: trees
termination_by schemas => 3 * sizeOf schemas
decreasing_by
  all_goals
    rw [List.cons.sizeOf_spec]
    omega

def properties (builder : Builder) : Fields → Building (List (String × TypeTree))
  | [] => return []
  | (name, schema) :: rest => do
    let tree ← .inside (Step.property name).pointer (builder.build schema)
    let trees ← builder.properties rest
    return (name, tree) :: trees
termination_by fields => 3 * sizeOf fields
decreasing_by
  all_goals
    rw [List.cons.sizeOf_spec, Prod.mk.sizeOf_spec]
    omega

/-- The type of all further properties, if there can be any. -/
def index (builder : Builder) : Option (Option Schema) → Building (Option TypeTree)
  | none => return none
  | some schema => some <$> builder.part .index schema
termination_by index => 3 * index.join.elim 0 sizeOf + 3
decreasing_by
  rw [Option.join_some]
  omega

/-- The type of a part, where it may be anything if there is no schema for it. -/
def part (builder : Builder) (step : Step) : Option Schema → Building TypeTree
  | none => return .unknown
  | some schema => .inside step.pointer (builder.build schema)
termination_by schema => 3 * schema.elim 0 sizeOf + 2
decreasing_by
  rw [Option.elim_some]
  omega

end

/-- The type of a schema that may be missing, with the name under which it is to be declared. -/
def root (builder : Builder) (name : Option String) (schema : Option Schema) :
    Building TypeTree := do
  let tree ← match schema with
    | some schema => builder.build schema
    | none => pure .unknown
  return match name with
    | some name => tree.named (builder.affixes.typeName name)
    | none => tree

end Builder

end SchemaTypes
