import SchemaTypes.Proofs.Build.Environment
import SchemaTypes.Proofs.Build.References
import SchemaTypes.Proofs.Json.Names

/-! # What a builder asks of its components

A builder looks components up and does nothing else with them. So builders with the same affixes
that find the same under every key give the same trees and find the same in every schema.
-/

namespace SchemaTypes

open SchemaTypes.Json

namespace Builder

/-- Two builders declare the same names and find the same component under every key. -/
structure Alike (builder other : Builder) : Prop where
  affixes : builder.affixes = other.affixes
  components (key : String) :
    Fields.get? key builder.components = Fields.get? key other.components

variable {builder other : Builder}

theorem alike_of_perm (affixes : Affixes) {components others : Fields}
    (perm : components.Perm others) (names : (components.map (·.1)).Nodup) :
    Alike ⟨affixes, components⟩ ⟨affixes, others⟩ :=
  ⟨rfl, Fields.get?_perm perm names⟩

theorem Alike.reference (alike : Alike builder other) (schema : Schema) (target : String) :
    builder.reference schema target = other.reference schema target := by
  simp only [Builder.reference, alike.affixes, alike.components]

theorem Alike.tree (alike : Alike builder other) (schema : Schema) :
    builder.tree schema = other.tree schema :=
  tree_of_references alike.reference schema

theorem Alike.rootTree (alike : Alike builder other) (name : Option String)
    (schema : Option Schema) : builder.rootTree name schema = other.rootTree name schema := by
  rw [Builder.rootTree, Builder.rootTree, alike.affixes, funext alike.tree]

end Builder

end SchemaTypes
