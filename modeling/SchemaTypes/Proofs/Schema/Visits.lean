import SchemaTypes.Schema.Reading
import SchemaTypes.Schema.Reference
import SchemaTypes.Proofs.Json.Names
import SchemaTypes.Proofs.Json.Fragment

/-! # The nodes that are visited

Reading a schema comes to the node itself and then to those below it, part by part. A part stands in
the document at the end of its step, so the place of a node that is visited leads back to the node.
Different steps begin with different tokens or go on with them, so that no two visited nodes have
the same place.
-/

namespace SchemaTypes

open SchemaTypes.Json

theorem Combinator.keyword_injective : Function.Injective keyword := by
  intro combinator other same
  cases combinator <;> cases other <;> first | rfl | (revert same; decide)

namespace Step

theorem toString_injective : Function.Injective (toString : Nat → String) := by
  intro place other same
  have read := Pointer.index?_toString place
  rw [same, Pointer.index?_toString] at read
  exact (Option.some.inj read).symm

/-- The way to a part does not go on as the way to another one. -/
theorem pointer_append_inj {step other : Step} {rest further : Pointer}
    (same : step.pointer ++ rest = other.pointer ++ further) : step = other := by
  cases step with
  | member combinator place =>
    cases other with
    | member combinator' place' =>
      simp only [pointer, List.cons_append, List.cons.injEq] at same
      rw [Combinator.keyword_injective same.1, toString_injective same.2.1]
    | _ => cases combinator <;> simp [pointer, Combinator.keyword] at same
  | property name =>
    cases other with
    | property name' =>
      simp only [pointer, List.cons_append, List.cons.injEq] at same
      rw [same.2.1]
    | member combinator place => cases combinator <;> simp [pointer, Combinator.keyword] at same
    | _ => simp [pointer] at same
  | index =>
    cases other with
    | index => rfl
    | member combinator place => cases combinator <;> simp [pointer, Combinator.keyword] at same
    | _ => simp [pointer] at same
  | item =>
    cases other with
    | item => rfl
    | member combinator place => cases combinator <;> simp [pointer, Combinator.keyword] at same
    | _ => simp [pointer] at same

theorem pointer_ne_nil (step : Step) : step.pointer ≠ [] := by
  cases step <;> exact List.cons_ne_nil _ _

end Step

namespace Schema

/-! ## Parts -/

theorem at?_cons_of_get? {name : String} {schema part : Value}
    (found : schema.get? name = some part) (rest : Pointer) :
    schema.at? (name :: rest) = part.at? rest := by
  cases schema with
  | object fields =>
    rw [Value.get?] at found
    rw [Value.at?, Value.step?, found, Option.bind_some]
  | _ => cases found

theorem at?_item (items : List Value) (i : Nat) :
    (Value.array items).at? [toString i] = items[i]? := by
  rw [Value.at?, Value.step?, Pointer.index?_toString, Option.bind_some]
  exact Option.bind_fun_some _

/-- A value stands at the end of a step from a node: among the members or properties that the node
lists under a keyword, or under the keyword itself. -/
inductive HasBehind (schema : Schema) : Step → Value → Prop where
  | member {combinator : Combinator} {members : List Value} {place : Nat} {part : Value}
    (list : schema.get? combinator.keyword = some (.array members))
    (found : members[place]? = some part) : HasBehind schema (.member combinator place) part
  | property {fields : Fields} {name : String} {part : Value}
    (object : schema.get? "properties" = some (.object fields)) (mem : (name, part) ∈ fields) :
    HasBehind schema (.property name) part
  | index {part : Value} (found : schema.get? "additionalProperties" = some part) :
    HasBehind schema .index part
  | item {part : Value} (found : schema.get? "items" = some part) : HasBehind schema .item part

theorem get?_of_list? {keyword : String} {schema : Schema} {items : List Value}
    (found : schema.list? keyword = some items) : schema.get? keyword = some (.array items) := by
  rw [list?] at found
  split at found
  · next isArray => rw [isArray, ← Option.some.inj found]
  · cases found

theorem get?_of_properties? {schema : Schema} {fields : Fields}
    (found : schema.properties? = some fields) :
    schema.get? "properties" = some (.object fields) := by
  rw [properties?] at found
  split at found
  · next isObject => rw [isObject, ← Option.some.inj found]
  · cases found

theorem hasBehind_part {schema : Schema} {part : Step × Schema}
    (mem : part ∈ schema.reading.parts) : schema.HasBehind part.1 part.2 := by
  cases read : schema.reading with
  | combination combinator members =>
    rw [read, Reading.parts] at mem
    rcases List.mem_mapIdx.mp mem with ⟨i, bound, rfl⟩
    exact .member (get?_of_list? (reading_members read)) (List.getElem?_eq_getElem bound)
  | object properties index =>
    rcases reading_object read with ⟨-, rfl, rfl⟩
    rw [read, Reading.parts] at mem
    rcases List.mem_append.mp mem with mem | mem
    · rcases List.mem_map.mp mem with ⟨⟨name, value⟩, listed, rfl⟩
      cases found : schema.properties? with
      | none => simp [found] at listed
      | some fields =>
        rw [found] at listed
        exact .property (get?_of_properties? found) listed
    · rcases List.mem_map.mp mem with ⟨further, given, rfl⟩
      rw [Option.mem_toList, index?] at given
      split at given
      · cases given
      · next isObject =>
        cases given
        exact .index isObject
      · cases given
  | array items =>
    rcases reading_array read with ⟨-, -, rfl⟩
    rw [read, Reading.parts] at mem
    rcases List.mem_map.mp mem with ⟨item, given, rfl⟩
    rw [Option.mem_toList, items?] at given
    split at given
    · cases given
    · exact .item given
  | _ => simp [read, Reading.parts] at mem

theorem HasBehind.at? {schema : Schema} (distinct : schema.HasDistinctNames) {step : Step}
    {part : Value} (behind : schema.HasBehind step part) :
    schema.at? step.pointer = some part := by
  cases behind with
  | member list found => rw [Step.pointer, at?_cons_of_get? list, at?_item, found]
  | property object mem =>
    rcases distinct.get? object with _ | _ | _ | _ | _ | ⟨names, -⟩
    rw [Step.pointer, at?_cons_of_get? object, Value.at?_field, Fields.get?_of_mem names mem]
  | index found => exact at?_cons_of_get? found []
  | item found => exact at?_cons_of_get? found []

/-- A part stands at the end of its step. -/
theorem at?_part {schema : Schema} (distinct : schema.HasDistinctNames) {part : Step × Schema}
    (mem : part ∈ schema.reading.parts) : schema.at? part.1.pointer = some part.2 :=
  (hasBehind_part mem).at? distinct

theorem part_hasDistinctNames {schema : Schema} (distinct : schema.HasDistinctNames)
    {part : Step × Schema} (mem : part ∈ schema.reading.parts) : part.2.HasDistinctNames :=
  distinct.at? (at?_part distinct mem)

/-- Every part has a step of its own. -/
theorem nodup_steps {schema : Schema} (distinct : schema.HasDistinctNames) :
    (schema.reading.parts.map (·.1)).Nodup := by
  cases read : schema.reading with
  | combination combinator members =>
    have steps : (Reading.combination combinator members).parts.map (·.1) =
        (members.zipIdx.map (·.2)).map (Step.member combinator) := by
      rw [Reading.parts, List.mapIdx_eq_zipIdx_map, List.map_map, List.map_map]
      rfl
    rw [steps, List.zipIdx_map_snd]
    exact List.Nodup.map (fun _ _ same => (Step.member.inj same).2) List.nodup_range'
  | object properties index =>
    rcases reading_object read with ⟨-, rfl, rfl⟩
    have names : ((schema.properties?.getD []).map (·.1)).Nodup := by
      cases found : schema.properties? with
      | none => exact List.nodup_nil
      | some fields =>
        rcases distinct.get? (get?_of_properties? found) with _ | _ | _ | _ | _ | ⟨names, -⟩
        exact names
    have steps : (Reading.object (schema.properties?.getD []) schema.index?).parts.map (·.1) =
        ((schema.properties?.getD []).map (·.1)).map Step.property ++
          schema.index?.join.toList.map fun _ => Step.index := by
      simp [Reading.parts, Function.comp_def]
    rw [steps]
    refine (names.map fun _ _ same => Step.property.inj same).append ?_ ?_
    · cases schema.index?.join <;> simp
    · intro step named further
      rcases List.mem_map.mp named with ⟨name, -, rfl⟩
      simp at further
  | array items => cases items <;> simp [Reading.parts]
  | _ => exact List.nodup_nil

/-! ## Visits -/

/-- The nodes that are read for a schema at a place, with their places: a node first, and then the
nodes of its parts in the order of the parts. -/
def visits (place : Pointer) (schema : Schema) : List (Pointer × Schema) :=
  (place, schema) :: schema.reading.parts.attach.flatMap fun part =>
    visits (place ++ part.1.1.pointer) part.1.2
termination_by sizeOf schema
decreasing_by exact sizeOf_part part.2

theorem visits_eq (place : Pointer) (schema : Schema) :
    schema.visits place = (place, schema) :: schema.reading.parts.flatMap fun part =>
      part.2.visits (place ++ part.1.pointer) := by
  have parts := List.flatMap_map (fun part : { part // part ∈ schema.reading.parts } => part.1)
    (fun part : Step × Schema => part.2.visits (place ++ part.1.pointer))
    schema.reading.parts.attach
  rw [List.attach_map_subtype_val] at parts
  rw [visits, parts]

theorem exists_of_mem_visits {place : Pointer} {schema : Schema} :
    ∀ visit ∈ schema.visits place, ∃ rest, visit.1 = place ++ rest := by
  induction schema using inductionOnParts generalizing place with
  | node schema parts =>
    intro visit mem
    rw [visits_eq] at mem
    rcases List.mem_cons.mp mem with rfl | mem
    · exact ⟨[], (List.append_nil _).symm⟩
    · rcases List.mem_flatMap.mp mem with ⟨part, isPart, mem⟩
      rcases parts part isPart visit mem with ⟨rest, same⟩
      exact ⟨part.1.pointer ++ rest, by rw [same, List.append_assoc]⟩

/-- What is visited stands at its place. -/
theorem at?_visits {root : Value} {place : Pointer} {schema : Schema}
    (distinct : schema.HasDistinctNames) (here : root.at? place = some schema) :
    ∀ visit ∈ schema.visits place, root.at? visit.1 = some visit.2 := by
  induction schema using inductionOnParts generalizing place with
  | node schema parts =>
    intro visit mem
    rw [visits_eq] at mem
    rcases List.mem_cons.mp mem with rfl | mem
    · exact here
    · rcases List.mem_flatMap.mp mem with ⟨part, isPart, mem⟩
      apply parts part isPart (part_hasDistinctNames distinct isPart) _ visit mem
      rw [Value.at?_append, here, Option.bind_some, at?_part distinct isPart]

/-- What is visited below places that do not go on as each other has other places. -/
theorem disjoint_visits {place other : Pointer}
    (apart : ∀ rest further, place ++ rest ≠ other ++ further) (schema part : Schema) :
    List.Disjoint ((schema.visits place).map (·.1)) ((part.visits other).map (·.1)) := by
  intro pointer here there
  rcases List.mem_map.mp here with ⟨visit, isVisit, rfl⟩
  rcases List.mem_map.mp there with ⟨visit', isVisit', same⟩
  rcases exists_of_mem_visits visit isVisit with ⟨rest, shape⟩
  rcases exists_of_mem_visits visit' isVisit' with ⟨further, shape'⟩
  rw [shape, shape'] at same
  exact apart rest further same.symm

/-- No two visited nodes have the same place. -/
theorem nodup_visits {place : Pointer} {schema : Schema} (distinct : schema.HasDistinctNames) :
    ((schema.visits place).map (·.1)).Nodup := by
  induction schema using inductionOnParts generalizing place with
  | node schema parts =>
    rw [visits_eq, List.map_cons, List.nodup_cons, List.map_flatMap, List.nodup_flatMap]
    refine ⟨?_, fun part isPart => ?_, ?_⟩
    · rintro mem
      rcases List.mem_flatMap.mp mem with ⟨part, -, mem⟩
      rcases List.mem_map.mp mem with ⟨visit, mem, same⟩
      rcases exists_of_mem_visits visit mem with ⟨rest, shape⟩
      rw [shape, List.append_assoc, List.append_right_eq_self, List.append_eq_nil_iff] at same
      exact part.1.pointer_ne_nil same.1
    · exact parts part isPart (part_hasDistinctNames distinct isPart)
    · refine (List.pairwise_map.mp (nodup_steps distinct)).imp fun different => ?_
      apply disjoint_visits
      intro rest further same
      rw [List.append_assoc, List.append_assoc, List.append_cancel_left_eq] at same
      exact different (Step.pointer_append_inj same)

end Schema

end SchemaTypes
