import SchemaTypes.TypeTree.Inline
import SchemaTypes.Proofs.TypeTree.Traversal

/-! # What types are written with

The operations that the text of a type is put together with, over any values in place of texts.
What each of them keeps holds of every written type: a relation between values of two kinds that is
closed under the operations holds between what a type is written as with the one and with the other.
-/

namespace SchemaTypes

open SchemaTypes.Json

/-- The operations that types are written with, into values for types and for rows of objects. -/
structure Printer (α ρ : Type) where
  leaf (text : String) : α
  array (binding : Binding) (item : α) : α
  union (members : List α) : α
  intersection (operands : List (Binding × α)) : α
  /-- The alternative `null` behind a type. -/
  orNull (type : α) : α
  emptyObject : α
  object (rows : ρ) : α
  /-- The row of a property in front of further ones. -/
  property (name : String) (required : Bool) (description : Option String) (type : α) (more : ρ) : ρ
  /-- The last row, which says of what type all further properties are. -/
  further (type : α) : ρ
  noFurther : ρ

namespace Printer

variable {α β ρ σ : Type}

section

variable (printer : Printer α ρ) (value : TypeTree → α)

def rows (required : List String) (index : Option TypeTree) : List (String × TypeTree) → ρ
  | [] => index.elim printer.noFurther fun tree => printer.further (value tree)
  | (name, tree) :: rest =>
    printer.property name (required.contains name) tree.description (value tree)
      (rows required index rest)

def kind : Kind TypeTree → α
  | .primitive primitive => printer.leaf primitive.text
  | .literal value => printer.leaf value.literal
  | .custom text => printer.leaf text
  | .reference name => printer.leaf name
  | .array item => printer.array item.binding (value item)
  | .enumeration values _ => printer.union (values.map fun value => printer.leaf value.literal)
  | .interface properties required index =>
    if properties.isEmpty && index.isNone then printer.emptyObject
    else printer.object (printer.rows value required index properties)
  | .union members _ => printer.union (members.map value)
  | .intersection members =>
    printer.intersection (members.map fun tree => (tree.binding, value tree))

/-- Types are written with the operations as these values. -/
def Writes : Prop :=
  ∀ attributes kind, value (.node attributes kind) =
    if attributes.nullable && !TypeTree.kindListsNull kind then
      printer.orNull (printer.kind value kind)
    else printer.kind value kind

end

/-- Relations between values for types, by how these bind, and between values for rows that every
operation keeps, if the names in a type are good ones. -/
structure Related (left : Printer α ρ) (right : Printer β σ) (good : String → Prop)
    (related : Binding → α → β → Prop) (relatedRows : ρ → σ → Prop) : Prop where
  weaken {binding : Binding} {a : α} {b : β} : related binding a b → related .union a b
  primitive (primitive : Primitive) :
    related .atom (left.leaf primitive.text) (right.leaf primitive.text)
  literal (value : Value) : related .atom (left.leaf value.literal) (right.leaf value.literal)
  custom {text : String} : good text → related (.ofText text) (left.leaf text) (right.leaf text)
  reference {name : String} : good name → related .atom (left.leaf name) (right.leaf name)
  array {binding : Binding} {a : α} {b : β} :
    related binding a b → related .atom (left.array binding a) (right.array binding b)
  noMember : related .atom (left.union []) (right.union [])
  onlyMember {binding : Binding} {a : α} {b : β} :
    related binding a b → related binding (left.union [a]) (right.union [b])
  members {ι : Type} {items : List ι} {a : ι → α} {b : ι → β} : items ≠ [] →
    (∀ item ∈ items, related .union (a item) (b item)) →
      related .union (left.union (items.map a)) (right.union (items.map b))
  noOperand : related .atom (left.intersection []) (right.intersection [])
  onlyOperand {binding : Binding} {a : α} {b : β} : related binding a b →
    related binding (left.intersection [(binding, a)]) (right.intersection [(binding, b)])
  operands {ι : Type} {items : List ι} {binding : ι → Binding} {a : ι → α} {b : ι → β} :
    items ≠ [] → (∀ item ∈ items, related (binding item) (a item) (b item)) →
      related .intersection (left.intersection (items.map fun item => (binding item, a item)))
        (right.intersection (items.map fun item => (binding item, b item)))
  orNull {a : α} {b : β} : related .union a b → related .union (left.orNull a) (right.orNull b)
  emptyObject : related .atom left.emptyObject right.emptyObject
  object {rows : ρ} {rows' : σ} :
    relatedRows rows rows' → related .atom (left.object rows) (right.object rows')
  property (name : String) (required : Bool) (description : Option String) {a : α} {b : β}
    {more : ρ} {more' : σ} : related .union a b → relatedRows more more' →
      relatedRows (left.property name required description a more)
        (right.property name required description b more')
  further {a : α} {b : β} : related .union a b → relatedRows (left.further a) (right.further b)
  noFurther : relatedRows left.noFurther right.noFurther

end Printer

namespace TypeTree

theorem binding_node (attributes : Attributes) (kind : Kind TypeTree) :
    binding (.node attributes kind) =
      if attributes.nullable then .union else (plain kind).binding := by
  by_cases nullable : attributes.nullable
  · rw [if_pos nullable]
    unfold binding
    rw [if_pos nullable]
  · rw [if_neg nullable]
    unfold binding plain
    rw [if_neg nullable]
    rfl

end TypeTree

namespace Printer.Related

variable {α β ρ σ : Type} {left : Printer α ρ} {right : Printer β σ} {good : String → Prop}
  {related : Binding → α → β → Prop} {relatedRows : ρ → σ → Prop}
  {value : TypeTree → α} {other : TypeTree → β}

theorem rows (closed : Related left right good related relatedRows) (required : List String)
    {properties : List (String × TypeTree)} {index : Option TypeTree}
    (each : ∀ part ∈ (Kind.interface properties required index).parts,
      related part.binding (value part) (other part)) :
    relatedRows (left.rows value required index properties)
      (right.rows other required index properties) := by
  induction properties with
  | nil =>
    cases index with
    | none => exact closed.noFurther
    | some tree => exact closed.further (closed.weaken (each tree List.mem_cons_self))
  | cons entry rest ih =>
    have here := each entry.2 List.mem_cons_self
    have more := ih fun part mem => each part (List.mem_cons_of_mem _ mem)
    exact closed.property entry.1 _ _ (closed.weaken here) more

theorem kind (closed : Related left right good related relatedRows) {attributes : Attributes}
    {kind : Kind TypeTree}
    (names : ∀ name, TypeTree.leafName? (.node attributes kind) = some name → good name)
    (each : ∀ part ∈ kind.parts, related part.binding (value part) (other part)) :
    related (TypeTree.plain kind).binding (left.kind value kind) (right.kind other kind) := by
  cases kind with
  | primitive primitive => exact closed.primitive primitive
  | literal literal => exact closed.literal literal
  | custom text =>
    have binds : (TypeTree.plain (.custom text)).binding = .ofText text := by
      rw [TypeTree.plain, TypeTree.binding, if_neg (by decide)]
    rw [binds]
    exact closed.custom (names text rfl)
  | reference name => exact closed.reference (names name rfl)
  | array item => exact closed.array (each item List.mem_cons_self)
  | enumeration values ofStrings =>
    rcases values with _ | ⟨only, _ | ⟨second, rest⟩⟩
    · exact closed.noMember
    · exact closed.onlyMember (closed.literal only)
    · exact closed.members (List.cons_ne_nil _ _) fun literal _ =>
        closed.weaken (closed.literal literal)
  | interface properties required index =>
    rw [Printer.kind, Printer.kind]
    split
    · exact closed.emptyObject
    · exact closed.object (closed.rows required each)
  | union members discriminator =>
    rcases members with _ | ⟨only, _ | ⟨second, rest⟩⟩
    · exact closed.noMember
    · have binds : (TypeTree.plain (.union [only] discriminator)).binding = only.binding := by
        simp [TypeTree.plain, TypeTree.binding]
      rw [binds]
      exact closed.onlyMember (each only List.mem_cons_self)
    · exact closed.members (List.cons_ne_nil _ _) fun member mem => closed.weaken (each member mem)
  | intersection members =>
    rcases members with _ | ⟨only, _ | ⟨second, rest⟩⟩
    · exact closed.noOperand
    · have binds : (TypeTree.plain (.intersection [only])).binding = only.binding := by
        simp [TypeTree.plain, TypeTree.binding]
      rw [binds]
      exact closed.onlyOperand (each only List.mem_cons_self)
    · exact closed.operands (List.cons_ne_nil _ _) each

/-- What every operation keeps holds between the two values of a type. -/
theorem tree (closed : Related left right good related relatedRows) (writes : left.Writes value)
    (writes' : right.Writes other) {tree : TypeTree} (names : tree.HasNames good) :
    related tree.binding (value tree) (other tree) := by
  induction tree using TypeTree.inductionOnParts with
  | node attributes kind parts =>
    obtain ⟨own, below⟩ := TypeTree.hasNames_node.mp names
    have here := closed.kind own fun part mem => parts part mem (below part mem)
    rw [writes, writes', TypeTree.binding_node]
    by_cases nullable : attributes.nullable
    · rw [if_pos nullable]
      split
      · exact closed.orNull (closed.weaken here)
      · exact closed.weaken here
    · rw [if_neg nullable, Bool.eq_false_iff.mpr nullable]
      exact here

end Printer.Related

/-! ## Texts -/

namespace TypeTree

theorem spaces_indentation (depth : Nat) : ∀ c ∈ (indentation depth).toList, c = ' ' := by
  intro c mem
  rw [indentation, String.toList_ofList] at mem
  exact (List.mem_replicate.mp mem).2

theorem inlineEach_eq (depth : Nat) (trees : List TypeTree) :
    inlineEach depth trees = trees.map fun tree => tree.inlineAt depth := by
  induction trees with
  | nil => rfl
  | cons tree trees ih => rw [inlineEach, ih, List.map_cons]

theorem operandEach_eq (depth : Nat) (trees : List TypeTree) :
    operandEach depth trees =
      trees.map fun tree => parenthesized (tree.binding == .union) (tree.inlineAt depth) := by
  induction trees with
  | nil => rfl
  | cons tree trees ih => rw [operandEach, ih, List.map_cons]

theorem anyListsNull_eq (trees : List TypeTree) :
    anyListsNull trees = trees.any fun tree => tree.nullable || tree.listsNull := by
  induction trees with
  | nil => rfl
  | cons tree trees ih => rw [anyListsNull, ih, List.any_cons]

theorem joined_map {α : Type} {operator empty : String} {items : List α} (h : items ≠ [])
    (text : α → String) :
    joined operator empty (items.map text) = operator.intercalate (items.map text) := by
  rw [joined, if_neg (by simpa using h)]

end TypeTree

namespace Printer

open TypeTree

/-- The operations that types are written with as texts, inside any number of objects. Of what a
property is described as some may be left unsaid. -/
def texts (said : Option String → Option String) : Printer (Nat → String) (Nat → String) where
  leaf text := fun _ => text
  array binding item := fun depth => parenthesized (binding != .atom) (item depth) ++ "[]"
  union members := fun depth => joined " | " "never" (members.map fun member => member depth)
  intersection operands := fun depth =>
    joined " & " "unknown" (operands.map fun operand =>
      parenthesized (operand.1 == .union) (operand.2 depth))
  orNull type := fun depth => type depth ++ " | null"
  emptyObject := fun _ => "\x7b\x7d"
  object rows := fun depth => "\x7b\n" ++ rows (depth + 1) ++ indentation depth ++ "\x7d"
  property name required description type more := fun depth =>
    Text.docComment (indentation depth) (said description) ++ indentation depth ++
      Naming.propertyKey name ++ (if required then "" else "?") ++ ": " ++ type depth ++ ";\n" ++
      more depth
  further type := fun depth => indentation depth ++ "[key: string]: " ++ type depth ++ ";\n"
  noFurther := fun _ => ""

/-- The operations of the texts that are written, with everything that is said. -/
abbrev printed : Printer (Nat → String) (Nat → String) := texts id

theorem rows_printed (required : List String) (properties : List (String × TypeTree))
    (index : Option TypeTree) (depth : Nat) :
    printed.rows (fun tree depth => tree.inlineAt depth) required index properties depth =
      memberLines depth required properties ++ indexLine depth index := by
  induction properties with
  | nil => cases index <;> simp [rows, texts, memberLines, indexLine]
  | cons entry rest ih =>
    rcases entry with ⟨name, tree⟩
    rw [memberLines, String.append_assoc, ← ih]
    rfl

theorem kind_printed (kind : Kind TypeTree) (depth : Nat) :
    printed.kind (fun tree depth => tree.inlineAt depth) kind depth = kindAt depth kind := by
  cases kind with
  | enumeration values ofStrings => simp [Printer.kind, texts, kindAt, Function.comp_def]
  | interface properties required index =>
    rw [Printer.kind, kindAt]
    split
    · rfl
    · have rows := rows_printed required properties index (depth + 1)
      have front : "\x7b\n" ++ memberLines (depth + 1) required properties ++
          indexLine (depth + 1) index = "\x7b\n" ++ (memberLines (depth + 1) required properties ++
            indexLine (depth + 1) index) := String.append_assoc
      rw [front, ← rows]
      rfl
  | union members discriminator =>
    simp [Printer.kind, texts, kindAt, inlineEach_eq, Function.comp_def]
  | intersection members =>
    simp [Printer.kind, texts, kindAt, operandEach_eq, Function.comp_def]
  | _ => rfl

theorem writes_printed : printed.Writes fun tree depth => tree.inlineAt depth := by
  intro attributes kind
  funext depth
  change inlineAt depth (.node attributes kind) = _
  rw [inlineAt, nullSuffix, ← kind_printed]
  split
  · rfl
  · exact String.append_empty

end Printer

end SchemaTypes
