import SchemaTypes.Schema.Basic
import SchemaTypes.Json.Pointer

/-! # Contexts

Building never fails. Beside the tree it leaves something in a context that all builds of a run
share: the custom types in use, each once and in the order of its first use, and findings about the
schemas that the user should hear of. The context also knows the way to the node that is being
built, so that a finding can tell its place.
-/

namespace SchemaTypes

open SchemaTypes.Json

/-- A node has properties beside a combinator; the combinator is followed and the properties are
not. -/
structure Finding where
  pointer : Pointer
  combinator : Combinator
deriving DecidableEq

def Finding.message (finding : Finding) : String :=
  finding.pointer.fragment ++ ": schema mixes `" ++ finding.combinator.keyword ++
    "` with `properties`; the properties are ignored"

/-- What the builds so far have used and found, and the parts of the way to the node at hand. -/
structure Context where
  used : List String := []
  findings : List Finding := []
  path : List Pointer := []

namespace Context

def pointer (context : Context) : Pointer := context.path.flatten

def record (name : String) (context : Context) : Context :=
  if context.used.contains name then context else { context with used := context.used ++ [name] }

def report (combinator : Combinator) (context : Context) : Context :=
  { context with findings := context.findings ++ [⟨context.pointer, combinator⟩] }

def enter (part : Pointer) (context : Context) : Context :=
  { context with path := context.path ++ [part] }

def leave (context : Context) : Context :=
  { context with path := context.path.dropLast }

end Context

abbrev Building (α : Type) := StateM Context α

namespace Building

def naming {α : Type} (name : String) (result : α) : Building α := do
  modify (Context.record name)
  return result

def inside {α : Type} (part : Pointer) (action : Building α) : Building α := do
  modify (Context.enter part)
  let result ← action
  modify Context.leave
  return result

end Building

end SchemaTypes
