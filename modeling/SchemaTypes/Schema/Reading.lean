import SchemaTypes.Schema.Basic
import SchemaTypes.Json.Pointer

/-! # Readings

A node can say several things at once, of which one is followed. It is read as the first of these
that it can be: a reference, a type given in place of the described one, a combination, an
enumeration, an object, an array, a built-in type. What stands for a weaker reading is ignored.
-/

namespace SchemaTypes

open SchemaTypes.Json

/-- What a node is read as, with the schemas that this makes its parts. Where anything is allowed,
there is no schema. -/
inductive Reading where
  | reference (target : String)
  | custom (text : String)
  | combination (combinator : Combinator) (members : List Schema)
  | enumeration (values : List Value)
  /-- The properties, and what further ones are like if there can be any. -/
  | object (properties : Fields) (index : Option (Option Schema))
  | array (items : Option Schema)
  | scalar

namespace Schema

/-- What further properties are like, if `additionalProperties` says that there can be any. -/
def index? (schema : Schema) : Option (Option Schema) :=
  match schema.get? "additionalProperties" with
  | some (.bool true) => some none
  | some (.object fields) => some (some (.object fields))
  | _ => none

def items? (schema : Schema) : Option Schema :=
  match schema.get? "items" with
  | some .null => none
  | items => items

def reading (schema : Schema) : Reading :=
  match schema.target? with
  | some target => .reference target
  | none =>
    match schema.customType? with
    | some text => .custom text
    | none =>
      match schema.combination? with
      | some (combinator, members) => .combination combinator members
      | none =>
        match schema.list? "enum" with
        | some values => .enumeration values
        | none =>
          if schema.isObject then .object (schema.properties?.getD []) schema.index?
          else if schema.isArray then .array schema.items?
          else .scalar

end Schema

inductive Step where
  | member (combinator : Combinator) (place : Nat)
  | property (name : String)
  | index
  | item
deriving DecidableEq

def Step.pointer : Step → Pointer
  | member combinator place => [combinator.keyword, toString place]
  | property name => ["properties", name]
  | index => ["additionalProperties"]
  | item => ["items"]

/-- The parts of a node under a reading, in the order in which they are looked at. -/
def Reading.parts : Reading → List (Step × Schema)
  | combination combinator members =>
    members.mapIdx fun place member => (.member combinator place, member)
  | object properties index =>
    properties.map (fun entry => (.property entry.1, entry.2)) ++
      index.join.toList.map fun schema => (.index, schema)
  | array items => items.toList.map fun schema => (.item, schema)
  | _ => []

namespace Reading

/-- Every member of a combination is a part. -/
theorem exists_part_of_mem {combinator : Combinator} {members : List Schema} {member : Schema}
    (mem : member ∈ members) : ∃ step, (step, member) ∈ (combination combinator members).parts := by
  obtain ⟨place, inside, rfl⟩ := List.getElem_of_mem mem
  exact ⟨.member combinator place, List.mem_mapIdx.mpr ⟨place, inside, rfl⟩⟩

theorem property_mem_parts {properties : Fields} {index : Option (Option Schema)}
    {entry : String × Schema} (mem : entry ∈ properties) :
    (.property entry.1, entry.2) ∈ (object properties index).parts :=
  List.mem_append_left _ (List.mem_map.mpr ⟨entry, mem, rfl⟩)

theorem index_mem_parts (properties : Fields) (schema : Schema) :
    (.index, schema) ∈ (object properties (some (some schema))).parts :=
  List.mem_append_right _ (List.mem_singleton.mpr rfl)

theorem item_mem_parts (item : Schema) : (.item, item) ∈ (array (some item)).parts :=
  List.mem_singleton.mpr rfl

end Reading

/-! ## Parts are smaller than the whole -/

namespace Schema

theorem reading_reference {schema : Schema} {target : String}
    (read : schema.reading = .reference target) : schema.target? = some target := by
  rw [reading] at read
  grind

theorem reading_enumeration {schema : Schema} {values : List Value}
    (read : schema.reading = .enumeration values) : schema.list? "enum" = some values := by
  rw [reading] at read
  grind

theorem reading_combination {schema : Schema} {combinator : Combinator} {members : List Schema}
    (read : schema.reading = .combination combinator members) :
    schema.combination? = some (combinator, members) := by
  rw [reading] at read
  grind

theorem reading_members {schema : Schema} {combinator : Combinator} {members : List Schema}
    (read : schema.reading = .combination combinator members) :
    schema.members? combinator = some members := by
  obtain ⟨c, -, found⟩ := List.exists_of_findSome?_eq_some (reading_combination read)
  rcases Option.map_eq_some_iff.mp found with ⟨ms, found, same⟩
  cases same
  exact found

theorem reading_object {schema : Schema} {properties : Fields} {index : Option (Option Schema)}
    (read : schema.reading = .object properties index) :
    schema.isObject ∧ properties = schema.properties?.getD [] ∧ index = schema.index? := by
  rw [reading] at read
  grind

theorem reading_array {schema : Schema} {items : Option Schema}
    (read : schema.reading = .array items) :
    ¬ schema.isObject ∧ schema.isArray ∧ items = schema.items? := by
  rw [reading] at read
  grind

theorem sizeOf_pos (schema : Schema) : 0 < sizeOf schema := by
  cases schema with
  | null => decide
  | bool value => exact Nat.lt_add_right _ Nat.zero_lt_one
  | number n => exact Nat.lt_add_right _ Nat.zero_lt_one
  | string text => exact Nat.lt_add_right _ Nat.zero_lt_one
  | array items => exact Nat.lt_add_right _ Nat.zero_lt_one
  | object fields => exact Nat.lt_add_right _ Nat.zero_lt_one

theorem sizeOf_properties? (schema : Schema) :
    sizeOf (schema.properties?.getD []) ≤ sizeOf schema := by
  rw [properties?]
  split
  · next h =>
    have := sizeOf_get? h
    simp at this ⊢
    omega
  · exact sizeOf_pos schema

theorem sizeOf_index? (schema : Schema) :
    schema.index?.join.elim 0 sizeOf < sizeOf schema := by
  rw [index?]
  split
  · exact sizeOf_pos schema
  · next h => exact sizeOf_get? h
  · exact sizeOf_pos schema

theorem sizeOf_items? (schema : Schema) : schema.items?.elim 0 sizeOf < sizeOf schema := by
  rw [items?]
  split
  · exact sizeOf_pos schema
  · cases h : schema.get? "items" with
    | none => exact sizeOf_pos schema
    | some items => exact sizeOf_get? h

theorem sizeOf_part {schema : Schema} {part : Step × Schema} (h : part ∈ schema.reading.parts) :
    sizeOf part.2 < sizeOf schema := by
  cases read : schema.reading with
  | combination combinator members =>
    rw [read, Reading.parts] at h
    rcases List.mem_mapIdx.mp h with ⟨i, bound, rfl⟩
    have := sizeOf_combination? (reading_combination read)
    exact Nat.lt_trans (List.sizeOf_lt_of_mem (List.getElem_mem bound)) this
  | object properties index =>
    rcases reading_object read with ⟨-, rfl, rfl⟩
    rw [read, Reading.parts] at h
    rcases List.mem_append.mp h with h | h
    · rcases List.mem_map.mp h with ⟨entry, mem, rfl⟩
      have := List.sizeOf_lt_of_mem mem
      have := schema.sizeOf_properties?
      cases entry
      simp at *
      omega
    · have := schema.sizeOf_index?
      cases found : schema.index?.join with
      | none => simp [found] at h
      | some further =>
        rw [found] at h this
        simp at h
        subst h
        exact this
  | array items =>
    rcases reading_array read with ⟨-, -, rfl⟩
    have := schema.sizeOf_items?
    rw [read, Reading.parts] at h
    cases found : schema.items? with
    | none => simp [found] at h
    | some item =>
      rw [found] at h this
      simp at h
      subst h
      exact this
  | _ => simp [read, Reading.parts] at h

/-- What holds of a node if it holds of the parts that are looked at holds of every node. -/
@[elab_as_elim]
theorem inductionOnParts {motive : Schema → Prop}
    (node : ∀ schema, (∀ part ∈ schema.reading.parts, motive part.2) → motive schema)
    (schema : Schema) : motive schema :=
  node schema fun part _ => inductionOnParts node part.2
termination_by sizeOf schema
decreasing_by exact sizeOf_part ‹_›

end Schema

end SchemaTypes
