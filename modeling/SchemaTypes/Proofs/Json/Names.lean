import Mathlib.Data.List.Nodup
import SchemaTypes.Json.Reader
import SchemaTypes.Proofs.Json.Pointer

/-! # Names of fields

Where no object has two fields of one name, every field is found under its name, and this holds in
every part of a value as well. The reader of JSON gives no other values, because it collects the
fields of an object by inserting them one after the other.
-/

namespace SchemaTypes.Json

/-- No object in the value has two fields of one name. -/
inductive Value.HasDistinctNames : Value → Prop where
  | null : HasDistinctNames .null
  | bool (value : Bool) : HasDistinctNames (.bool value)
  | number (value : Number) : HasDistinctNames (.number value)
  | string (text : String) : HasDistinctNames (.string text)
  | array {items : List Value} (each : ∀ item ∈ items, item.HasDistinctNames) :
    HasDistinctNames (.array items)
  | object {fields : Fields} (names : (fields.map (·.1)).Nodup)
    (each : ∀ field ∈ fields, field.2.HasDistinctNames) : HasDistinctNames (.object fields)

namespace Fields

theorem get?_of_mem {name : String} {fields : Fields} {value : Value}
    (names : (fields.map (·.1)).Nodup) (mem : (name, value) ∈ fields) :
    get? name fields = some value := by
  induction fields with
  | nil => cases mem
  | cons field rest ih =>
    rcases field with ⟨key, first⟩
    rw [List.map_cons, List.nodup_cons] at names
    rw [get?]
    rcases List.mem_cons.mp mem with same | further
    · cases same
      exact if_pos rfl
    · have other : key ≠ name := by
        rintro rfl
        exact names.1 (List.mem_map.mpr ⟨(key, value), further, rfl⟩)
      rw [if_neg other]
      exact ih names.2 further

/-- Under names that are all different, the order of fields does not matter to a look-up. -/
theorem get?_perm {fields others : Fields} (perm : fields.Perm others)
    (names : (fields.map (·.1)).Nodup) (name : String) : get? name fields = get? name others := by
  have names' : (others.map (·.1)).Nodup := (perm.map (·.1)).nodup_iff.mp names
  ext value
  constructor
  · intro found
    exact get?_of_mem names' (perm.mem_iff.mp (mem_of_get? found))
  · intro found
    exact get?_of_mem names (perm.mem_iff.mpr (mem_of_get? found))

theorem mem_insert {name : String} {value : Value} {fields : Fields} {field : String × Value}
    (mem : field ∈ insert name value fields) : field = (name, value) ∨ field ∈ fields := by
  induction fields with
  | nil => exact .inl (List.mem_singleton.mp mem)
  | cons first rest ih =>
    rcases first with ⟨key, old⟩
    rw [insert] at mem
    split at mem
    · next same =>
      subst same
      rcases List.mem_cons.mp mem with new | further
      · exact .inl new
      · exact .inr (List.mem_cons_of_mem _ further)
    · rcases List.mem_cons.mp mem with here | further
      · exact .inr (here ▸ List.mem_cons_self)
      · exact (ih further).imp_right (List.mem_cons_of_mem _)

theorem nodup_insert {name : String} {value : Value} {fields : Fields}
    (names : (fields.map (·.1)).Nodup) : ((insert name value fields).map (·.1)).Nodup := by
  induction fields with
  | nil => exact List.nodup_singleton _
  | cons first rest ih =>
    rcases first with ⟨key, old⟩
    rw [List.map_cons, List.nodup_cons] at names
    rw [insert]
    split
    · exact List.nodup_cons.mpr names
    · next other =>
      refine List.nodup_cons.mpr ⟨?_, ih names.2⟩
      rw [List.mem_map]
      rintro ⟨field, mem, same⟩
      rcases mem_insert mem with rfl | old
      · exact other same.symm
      · exact names.1 (List.mem_map.mpr ⟨field, old, same⟩)

end Fields

namespace Value.HasDistinctNames

theorem insert {name : String} {value : Value} {fields : Fields}
    (old : HasDistinctNames (.object fields)) (new : value.HasDistinctNames) :
    HasDistinctNames (.object (Fields.insert name value fields)) := by
  rcases old with _ | _ | _ | _ | _ | ⟨names, each⟩
  refine .object (Fields.nodup_insert names) fun field mem => ?_
  rcases Fields.mem_insert mem with rfl | mem
  · exact new
  · exact each field mem

/-- However often a name comes, the object has it once. -/
theorem ofList {entries : List (String × Value)}
    (each : ∀ entry ∈ entries, entry.2.HasDistinctNames) :
    HasDistinctNames (.object (Fields.ofList entries)) := by
  have inserted : ∀ fields, HasDistinctNames (.object fields) →
      HasDistinctNames (.object
        (entries.foldl (fun fields entry => Fields.insert entry.1 entry.2 fields) fields)) := by
    induction entries with
    | nil => exact fun fields before => before
    | cons entry rest ih =>
      intro fields before
      rw [List.foldl_cons]
      apply ih fun entry mem => each entry (List.mem_cons_of_mem _ mem)
      exact before.insert (each entry List.mem_cons_self)
  exact inserted [] (.object List.nodup_nil fun field mem => nomatch mem)

theorem get? {name : String} {value part : Value} (whole : value.HasDistinctNames)
    (found : value.get? name = some part) : part.HasDistinctNames := by
  cases whole with
  | object names each => exact each _ (Fields.mem_of_get? found)
  | _ => cases found

theorem item {items : List Value} (whole : HasDistinctNames (.array items)) {i : Nat}
    {part : Value} (found : items[i]? = some part) : part.HasDistinctNames := by
  rcases whole with _ | _ | _ | _ | each
  exact each part (List.mem_of_getElem? found)

theorem step? {token : String} {value part : Value} (whole : value.HasDistinctNames)
    (found : value.step? token = some part) : part.HasDistinctNames := by
  cases value with
  | object fields => exact whole.get? found
  | array items =>
    rcases Option.bind_eq_some_iff.mp found with ⟨i, -, found⟩
    exact whole.item found
  | _ => cases found

theorem at? {pointer : Pointer} {value part : Value} (whole : value.HasDistinctNames)
    (found : value.at? pointer = some part) : part.HasDistinctNames := by
  induction pointer generalizing value with
  | nil =>
    cases found
    exact whole
  | cons token rest ih =>
    rcases Option.bind_eq_some_iff.mp found with ⟨middle, first, further⟩
    exact ih (whole.step? first) further

end Value.HasDistinctNames

/-! ## Reading -/

namespace Reader

open Value

theorem readItems_all {item : List Char → Option (Value × List Char)} {holds : Value → Prop}
    (each : ∀ cs value rest, item cs = some (value, rest) → holds value) {fuel : Nat}
    {cs rest : List Char} {values : List Value}
    (read : readItems item fuel cs = some (values, rest)) : ∀ value ∈ values, holds value := by
  induction fuel generalizing cs values with
  | zero => cases read
  | succ fuel ih =>
    rw [readItems] at read
    rcases Option.bind_eq_some_iff.mp read with ⟨⟨first, after⟩, isFirst, read⟩
    have here := each cs first after isFirst
    simp only at read
    split at read
    · rcases Option.bind_eq_some_iff.mp read with ⟨⟨others, after⟩, areOthers, read⟩
      cases read
      exact List.forall_mem_cons.mpr ⟨here, ih areOthers⟩
    · cases read
      exact List.forall_mem_singleton.mpr here
    · cases read

theorem readFields_all {limit : Nat} {item : List Char → Option (Value × List Char)}
    {holds : Value → Prop} (each : ∀ cs value rest, item cs = some (value, rest) → holds value)
    {fuel : Nat} {cs rest : List Char} {fields : List (String × Value)}
    (read : readFields limit item fuel cs = some (fields, rest)) :
    ∀ field ∈ fields, holds field.2 := by
  induction fuel generalizing cs fields with
  | zero => cases read
  | succ fuel ih =>
    rw [readFields] at read
    split at read
    · rcases Option.bind_eq_some_iff.mp read with ⟨⟨name, after⟩, -, read⟩
      simp only at read
      split at read
      · rcases Option.bind_eq_some_iff.mp read with ⟨⟨value, after⟩, isValue, read⟩
        have here := each _ value after isValue
        simp only at read
        split at read
        · rcases Option.bind_eq_some_iff.mp read with ⟨⟨others, after⟩, areOthers, read⟩
          cases read
          exact List.forall_mem_cons.mpr ⟨here, ih areOthers⟩
        · cases read
          exact List.forall_mem_singleton.mpr here
        · cases read
      · cases read
    · cases read

theorem readConstant_hasDistinctNames {cs rest : List Char} {value : Value}
    (read : readConstant cs = some (value, rest)) : value.HasDistinctNames := by
  rw [readConstant] at read
  split at read
  · cases read
    exact .null
  · split at read
    · cases read
      exact .bool true
    · rcases Option.map_eq_some_iff.mp read with ⟨rest, -, read⟩
      cases read
      exact .bool false

theorem readValue_hasDistinctNames {limit depth : Nat} {cs rest : List Char} {value : Value}
    (read : readValue limit depth cs = some (value, rest)) : value.HasDistinctNames := by
  induction depth using Nat.strongRecOn generalizing cs rest value with
  | ind depth ih =>
    unfold readValue at read
    split at read
    · rcases Option.map_eq_some_iff.mp read with ⟨⟨text, rest⟩, -, read⟩
      cases read
      exact .string text
    · split at read
      · cases read
      · next depth =>
        split at read
        · cases read
          exact .array fun item mem => nomatch mem
        · rcases Option.map_eq_some_iff.mp read with ⟨⟨items, rest⟩, areItems, read⟩
          cases read
          exact .array (readItems_all (fun _ _ _ read => ih depth depth.lt_succ_self read) areItems)
    · split at read
      · cases read
      · next depth =>
        split at read
        · cases read
          exact .object List.nodup_nil fun field mem => nomatch mem
        · rcases Option.map_eq_some_iff.mp read with ⟨⟨fields, rest⟩, areFields, read⟩
          cases read
          have each := readFields_all (fun _ _ _ read => ih depth depth.lt_succ_self read) areFields
          exact .ofList each
    · split at read
      · exact readConstant_hasDistinctNames read
      · exact readConstant_hasDistinctNames read
      · exact readConstant_hasDistinctNames read
      · rcases Option.map_eq_some_iff.mp read with ⟨⟨n, rest⟩, -, read⟩
        cases read
        exact .number n

end Reader

/-- A JSON text has no value with a name twice in one object. -/
theorem Value.parse?_hasDistinctNames {text : String} {value : Value}
    (read : Value.parse? text = some value) : value.HasDistinctNames := by
  rw [Value.parse?] at read
  split at read
  · next isRead =>
    split at read
    · cases read
      exact Reader.readValue_hasDistinctNames isRead
    · cases read
  · cases read

end SchemaTypes.Json
