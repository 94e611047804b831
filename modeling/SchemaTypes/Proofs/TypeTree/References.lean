import Mathlib.Data.List.Basic
import SchemaTypes.Proofs.TypeTree.Traversal

/-! # The references in a type

A reference is a node with a name and nothing below it. The references in a type can be replaced by
others, in what is said of them or in their names, and nothing else of the type changes: neither its
shape nor the custom types in it.
-/

namespace SchemaTypes.TypeTree

mutual

/-- A type in which `f` changes what is said of references, and `g` their names. -/
def mapReferences (f : Attributes → Attributes) (g : String → String) : TypeTree → TypeTree
  | .node attributes (.reference name) => .node (f attributes) (.reference (g name))
  | .node attributes kind => .node attributes (kindMapReferences f g kind)

def kindMapReferences (f : Attributes → Attributes) (g : String → String) :
    Kind TypeTree → Kind TypeTree
  | .array item => .array (mapReferences f g item)
  | .interface properties required index =>
    .interface (propertiesMapReferences f g properties) required (indexMapReferences f g index)
  | .union members discriminator => .union (eachMapReferences f g members) discriminator
  | .intersection members => .intersection (eachMapReferences f g members)
  | kind => kind

def eachMapReferences (f : Attributes → Attributes) (g : String → String) :
    List TypeTree → List TypeTree
  | [] => []
  | tree :: trees => mapReferences f g tree :: eachMapReferences f g trees

def propertiesMapReferences (f : Attributes → Attributes) (g : String → String) :
    List (String × TypeTree) → List (String × TypeTree)
  | [] => []
  | (name, tree) :: rest => (name, mapReferences f g tree) :: propertiesMapReferences f g rest

def indexMapReferences (f : Attributes → Attributes) (g : String → String) :
    Option TypeTree → Option TypeTree
  | none => none
  | some tree => some (mapReferences f g tree)

end

variable (f : Attributes → Attributes) (g : String → String)

theorem eachMapReferences_eq (trees : List TypeTree) :
    eachMapReferences f g trees = trees.map (mapReferences f g) := by
  induction trees with
  | nil => rfl
  | cons tree trees ih => rw [eachMapReferences, ih, List.map_cons]

theorem propertiesMapReferences_eq (properties : List (String × TypeTree)) :
    propertiesMapReferences f g properties =
      properties.map fun entry => (entry.1, entry.2.mapReferences f g) := by
  induction properties with
  | nil => rfl
  | cons entry rest ih => rw [propertiesMapReferences, ih, List.map_cons]

theorem kindMapReferences_eq (kind : Kind TypeTree) :
    kindMapReferences f g kind = kind.map (mapReferences f g) := by
  cases kind with
  | interface properties required index =>
    rw [kindMapReferences, propertiesMapReferences_eq]
    cases index <;> rfl
  | union members discriminator => rw [kindMapReferences, eachMapReferences_eq, Kind.map]
  | intersection members => rw [kindMapReferences, eachMapReferences_eq, Kind.map]
  | _ => rfl

theorem mapReferences_reference (attributes : Attributes) (name : String) :
    mapReferences f g (.node attributes (.reference name)) =
      .node (f attributes) (.reference (g name)) := rfl

theorem mapReferences_node {kind : Kind TypeTree} (other : ∀ name, kind ≠ .reference name)
    (attributes : Attributes) :
    mapReferences f g (.node attributes kind) =
      .node attributes (kind.map (mapReferences f g)) := by
  rw [← kindMapReferences_eq]
  cases kind with
  | reference name => exact absurd rfl (other name)
  | _ => rfl

/-- A type is the same with its own references. -/
theorem mapReferences_id (tree : TypeTree) :
    tree.mapReferences (fun attributes => attributes) (fun name => name) = tree := by
  induction tree using inductionOnParts with
  | node attributes kind parts =>
    cases kind with
    | reference name => rfl
    | _ => rw [mapReferences_node _ _ (by simp), Kind.map_congr parts, Kind.map_id]

theorem customs_mapReferences (tree : TypeTree) :
    (tree.mapReferences f g).customs = tree.customs := by
  induction tree using inductionOnParts with
  | node attributes kind parts =>
    cases kind with
    | reference name => rfl
    | custom text => rfl
    | _ =>
      rw [mapReferences_node _ _ (by simp), customs_node (by simp [Kind.map]),
        customs_node (by simp), Kind.parts_map, List.flatMap_map]
      exact List.flatMap_congr parts

/-- A type has as many nodes with other references as with its own. -/
theorem length_nodes_mapReferences (tree : TypeTree) :
    (tree.mapReferences f g).nodes.length = tree.nodes.length := by
  induction tree using inductionOnParts with
  | node attributes kind parts =>
    cases kind with
    | reference name => rfl
    | _ =>
      rw [mapReferences_node _ _ (by simp), nodes_node, nodes_node, Kind.parts_map,
        List.length_cons, List.length_cons, List.flatMap_map, List.length_flatMap,
        List.length_flatMap, List.map_congr_left parts]

/-- A type may as well be named before its references are changed, if the change of what is said of
them leaves names. -/
theorem mapReferences_named {f : Attributes → Attributes} (name : String)
    (named : ∀ attributes, f { attributes with name := some name } =
      { f attributes with name := some name }) (tree : TypeTree) :
    (tree.named name).mapReferences f g = (tree.mapReferences f g).named name := by
  rcases tree with ⟨attributes, kind⟩
  cases kind with
  | reference target => exact congrArg (TypeTree.node · (.reference (g target))) (named attributes)
  | _ => rfl

end SchemaTypes.TypeTree
