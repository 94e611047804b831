import SchemaTypes.Build.Node

/-! # Building many schemas

Builds follow one another with one context. Each takes up what the builds before it have left.
-/

namespace SchemaTypes

open SchemaTypes.Json

inductive Call where
  /-- The type of a schema that may be missing, under a name if it is to be declared. -/
  | build (name : Option String) (schema : Option Schema)
  /-- Note that a custom type is used by something that is not built. -/
  | record (name : String)

namespace Builder

/-- Do what is asked; only a build has a tree for an answer. -/
def call (builder : Builder) : Call → Building (Option TypeTree)
  | .build name schema => some <$> builder.root name schema
  | .record name => .naming name none

def session (builder : Builder) (calls : List Call) : Building (List (Option TypeTree)) :=
  calls.mapM builder.call

/-- Every schema of a map as a declarable type under its key, in the order of the map. -/
def roots (builder : Builder) (schemas : Fields) : Building (List TypeTree) :=
  schemas.mapM fun entry =>
    .inside (Reference.place entry.1) (builder.root (some entry.1) (some entry.2))

/-- The types of a map of schemas and what they use and find together. -/
def buildAll (builder : Builder) (schemas : Fields) : List TypeTree × Context :=
  (builder.roots schemas).run {}

end Builder

end SchemaTypes
