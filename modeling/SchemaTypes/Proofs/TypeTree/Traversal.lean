import SchemaTypes.TypeTree.Basic

/-! # Walking through a type tree

The parts of a kind of type in the order in which they are written, other types in their places,
induction over parts, and the nodes of a tree from the top down. The custom types of a tree are
those of its nodes, and so are the names that its leaves are written by.
-/

namespace SchemaTypes

/-- The types that a kind of type is built from: the members of a union or intersection in order,
the properties in order and then the index type, or the item of an array. -/
def Kind.parts {α : Type} : Kind α → List α
  | .array item => [item]
  | .interface properties _ index => properties.map (·.2) ++ index.toList
  | .union members _ => members
  | .intersection members => members
  | _ => []

def Kind.map {α β : Type} (f : α → β) : Kind α → Kind β
  | .primitive builtIn => .primitive builtIn
  | .literal value => .literal value
  | .custom text => .custom text
  | .reference name => .reference name
  | .array item => .array (f item)
  | .enumeration values ofStrings => .enumeration values ofStrings
  | .interface properties required index =>
    .interface (properties.map fun entry => (entry.1, f entry.2)) required (index.map f)
  | .union members discriminator => .union (members.map f) discriminator
  | .intersection members => .intersection (members.map f)

theorem Kind.parts_map {α β : Type} (f : α → β) (kind : Kind α) :
    (kind.map f).parts = kind.parts.map f := by
  cases kind with
  | interface properties required index => cases index <;> simp [Kind.map, Kind.parts]
  | _ => rfl

/-- What is put in the places of parts depends on the parts alone. -/
theorem Kind.map_congr {α β : Type} {f g : α → β} {kind : Kind α}
    (parts : ∀ part ∈ kind.parts, f part = g part) : kind.map f = kind.map g := by
  cases kind with
  | array item => exact congrArg Kind.array (parts item List.mem_cons_self)
  | interface properties required index =>
    have entries : (properties.map fun entry => (entry.1, f entry.2)) =
        properties.map fun entry => (entry.1, g entry.2) :=
      List.map_congr_left fun entry mem =>
        congrArg (Prod.mk entry.1) (parts _ (List.mem_append_left _ (List.mem_map_of_mem mem)))
    have further : index.map f = index.map g :=
      Option.map_congr fun part mem =>
        parts part (List.mem_append_right _ (Option.mem_toList.mpr mem))
    rw [Kind.map, Kind.map, entries, further]
  | union members discriminator =>
    exact congrArg (Kind.union · discriminator) (List.map_congr_left parts)
  | intersection members => exact congrArg Kind.intersection (List.map_congr_left parts)
  | _ => rfl

theorem Kind.map_id {α : Type} (kind : Kind α) : kind.map (fun part => part) = kind := by
  cases kind <;> simp [Kind.map]

namespace TypeTree

theorem sizeOf_part {kind : Kind TypeTree} {part : TypeTree} (h : part ∈ kind.parts) :
    sizeOf part < sizeOf kind := by
  cases kind with
  | array item =>
    rw [Kind.parts, List.mem_singleton] at h
    subst h
    simp
  | interface properties required index =>
    rcases List.mem_append.mp h with h | h
    · rcases List.mem_map.mp h with ⟨entry, mem, rfl⟩
      have := List.sizeOf_lt_of_mem mem
      rw [Prod.mk.sizeOf_spec] at this
      simp
      omega
    · rw [Option.mem_toList] at h
      subst h
      simp
      omega
  | union members discriminator =>
    have : sizeOf part < sizeOf members := List.sizeOf_lt_of_mem h
    simp
    omega
  | intersection members =>
    have : sizeOf part < sizeOf members := List.sizeOf_lt_of_mem h
    simp
    omega
  | _ => simp [Kind.parts] at h

/-- What holds of a node if it holds of its parts holds of every tree. -/
@[elab_as_elim]
theorem inductionOnParts {motive : TypeTree → Prop}
    (node : ∀ attributes kind, (∀ part ∈ kind.parts, motive part) → motive (.node attributes kind))
    (tree : TypeTree) : motive tree :=
  match tree with
  | .node attributes kind =>
    node attributes kind fun part _ => inductionOnParts node part
termination_by sizeOf tree
decreasing_by
  have := sizeOf_part ‹part ∈ kind.parts›
  simp
  omega

mutual

/-- The nodes of a tree, every node in front of its parts. -/
def nodes : TypeTree → List TypeTree
  | .node attributes kind => .node attributes kind :: kindNodes kind

def kindNodes : Kind TypeTree → List TypeTree
  | .array item => nodes item
  | .interface properties _ index => propertyNodes properties ++ indexNodes index
  | .union members _ => memberNodes members
  | .intersection members => memberNodes members
  | _ => []

def memberNodes : List TypeTree → List TypeTree
  | [] => []
  | tree :: trees => nodes tree ++ memberNodes trees

def propertyNodes : List (String × TypeTree) → List TypeTree
  | [] => []
  | (_, tree) :: rest => nodes tree ++ propertyNodes rest

def indexNodes : Option TypeTree → List TypeTree
  | none => []
  | some tree => nodes tree

end

theorem memberNodes_eq (trees : List TypeTree) : memberNodes trees = trees.flatMap nodes := by
  induction trees with
  | nil => rfl
  | cons tree trees ih => rw [memberNodes, ih, List.flatMap_cons]

theorem propertyNodes_eq (properties : List (String × TypeTree)) :
    propertyNodes properties = (properties.map (·.2)).flatMap nodes := by
  induction properties with
  | nil => rfl
  | cons entry rest ih => rw [propertyNodes, ih, List.map_cons, List.flatMap_cons]

theorem kindNodes_eq (kind : Kind TypeTree) : kindNodes kind = kind.parts.flatMap nodes := by
  cases kind with
  | interface properties required index =>
    rw [kindNodes, propertyNodes_eq, Kind.parts, List.flatMap_append]
    cases index <;> simp [indexNodes]
  | _ => simp [kindNodes, Kind.parts, memberNodes_eq]

theorem nodes_node (attributes : Attributes) (kind : Kind TypeTree) :
    nodes (.node attributes kind) = .node attributes kind :: kind.parts.flatMap nodes := by
  rw [nodes, kindNodes_eq]

def customText? : TypeTree → Option String
  | .node _ (.custom text) => some text
  | _ => none

def customs (tree : TypeTree) : List String := tree.nodes.filterMap customText?

/-- What is said of a type does not change its custom types. -/
theorem customs_plain (attributes : Attributes) (kind : Kind TypeTree) :
    customs (.node attributes kind) = customs (plain kind) := by
  cases kind <;> rfl

theorem customs_mapAttributes (f : Attributes → Attributes) (tree : TypeTree) :
    (tree.mapAttributes f).customs = tree.customs := by
  rcases tree with ⟨attributes, kind⟩
  rw [mapAttributes, customs_plain, customs_plain attributes]

theorem customs_unknown : unknown.customs = [] := rfl

theorem customs_node {kind : Kind TypeTree} (notCustom : ∀ text, kind ≠ .custom text)
    (attributes : Attributes) :
    customs (.node attributes kind) = kind.parts.flatMap customs := by
  have none : customText? (.node attributes kind) = none := by
    cases kind <;> first | rfl | exact absurd rfl (notCustom _)
  rw [customs, nodes_node, List.filterMap_cons_none none, List.filterMap_flatMap]
  rfl

def leafName? : TypeTree → Option String
  | .node _ (.custom text) => some text
  | .node _ (.reference name) => some name
  | _ => none

/-- Something holds of the names that the leaves of a tree are written by. -/
def HasNames (holds : String → Prop) (tree : TypeTree) : Prop :=
  ∀ node ∈ tree.nodes, ∀ name, node.leafName? = some name → holds name

theorem hasNames_iff {holds : String → Prop} {tree : TypeTree} :
    tree.HasNames holds ↔ ∀ name ∈ tree.nodes.filterMap leafName?, holds name := by
  simp only [HasNames, List.mem_filterMap, forall_exists_index, and_imp]
  exact ⟨fun each name node mem isName => each node mem name isName,
    fun each node mem name isName => each name node mem isName⟩

instance {holds : String → Prop} [DecidablePred holds] (tree : TypeTree) :
    Decidable (tree.HasNames holds) :=
  decidable_of_iff _ hasNames_iff.symm

theorem hasNames_node {holds : String → Prop} {attributes : Attributes} {kind : Kind TypeTree} :
    HasNames holds (.node attributes kind) ↔
      (∀ name, leafName? (.node attributes kind) = some name → holds name) ∧
        ∀ part ∈ kind.parts, HasNames holds part := by
  simp only [HasNames, nodes_node, List.forall_mem_cons, List.mem_flatMap]
  refine and_congr_right fun _ => ⟨fun below part isPart node inside => ?_, ?_⟩
  · exact below node ⟨part, isPart, inside⟩
  · rintro each node ⟨part, isPart, inside⟩
    exact each part isPart node inside

theorem HasNames.part {holds : String → Prop} {tree part : TypeTree} (names : tree.HasNames holds)
    (mem : part ∈ tree.kind.parts) : part.HasNames holds := by
  rcases tree with ⟨attributes, kind⟩
  exact (hasNames_node.mp names).2 part mem

/-- What is said of a type does not change the names in it. -/
theorem HasNames.mapAttributes {holds : String → Prop} {tree : TypeTree}
    (names : tree.HasNames holds) (f : Attributes → Attributes) :
    (tree.mapAttributes f).HasNames holds := by
  rcases tree with ⟨attributes, kind⟩
  obtain ⟨own, parts⟩ := hasNames_node.mp names
  refine hasNames_node.mpr ⟨fun name isLeaf => own name ?_, parts⟩
  rw [← isLeaf]
  cases kind <;> rfl

end TypeTree

end SchemaTypes
