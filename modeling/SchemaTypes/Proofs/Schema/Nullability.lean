import SchemaTypes.Proofs.Json.Pointer
import SchemaTypes.Proofs.Schema.Description

/-! # The two spellings of nullability

That `null` is an instance beside those of a type is said by the flag `nullable`, or by a list of
types that names `null` as well. A node with the flag can be spelled with a list, whichever of the
two names comes first; what is asked of nodes has the same answers, and every node below is spelled
as one likes.
-/

namespace SchemaTypes

open SchemaTypes.Json

inductive NullPlace where
  | first
  | last
deriving DecidableEq

def NullPlace.types (name : String) : NullPlace → List Value
  | first => [.string "null", .string name]
  | last => [.string name, .string "null"]

/-- Which of the nodes below a place are to be spelled with a list, and how. -/
abbrev Spelling := Pointer → Option NullPlace

def Spelling.below (token : String) (spelling : Spelling) : Spelling :=
  fun place => spelling (token :: place)

def Spelling.at (spelling : Spelling) (step : Step) : Spelling :=
  fun place => spelling (step.pointer ++ place)

namespace Schema

/-- The type of a node that is no reference and has one name for a type and the flag. -/
def flaggedType? (schema : Schema) : Option String :=
  if schema.target?.isNone && (schema.get? "nullable").bind Value.bool? == some true then
    schema.text? "type"
  else none

/-- Fields with a list of types in place of the type and without the flag. -/
def fieldsListing (types : List Value) (fields : Fields) : Fields :=
  (fields.filter fun field => field.1 != "nullable").map fun field =>
    (field.1, if field.1 = "type" then .array types else field.2)

/-- A node with a list of types instead of the flag, if it has the flag and that is wanted. -/
def relisted (wanted : Option NullPlace) (schema : Schema) : Schema :=
  match schema, wanted, schema.flaggedType? with
  | .object fields, some place, some name => .object (fieldsListing (place.types name) fields)
  | _, _, _ => schema

mutual

def respelled (spelling : Spelling) : Schema → Schema
  | .object fields => relisted (spelling []) (.object (fieldsRespelled spelling fields))
  | schema => schema

def fieldsRespelled (spelling : Spelling) : Fields → Fields
  | [] => []
  | (name, value) :: rest =>
    match Content.under name with
    | .schema => (name, respelled (spelling.below name) value) :: fieldsRespelled spelling rest
    | .list => (name, listRespelled (spelling.below name) value) :: fieldsRespelled spelling rest
    | .map => (name, mapRespelled (spelling.below name) value) :: fieldsRespelled spelling rest
    | .data => (name, value) :: fieldsRespelled spelling rest

def listRespelled (spelling : Spelling) : Value → Value
  | .array items => .array (itemsRespelled spelling 0 items)
  | value => value

def itemsRespelled (spelling : Spelling) (place : Nat) : List Value → List Value
  | [] => []
  | item :: items =>
    respelled (spelling.below (toString place)) item :: itemsRespelled spelling (place + 1) items

def mapRespelled (spelling : Spelling) : Value → Value
  | .object entries => .object (entriesRespelled spelling entries)
  | value => value

def entriesRespelled (spelling : Spelling) : Fields → Fields
  | [] => []
  | (name, schema) :: rest =>
    (name, respelled (spelling.below name) schema) :: entriesRespelled spelling rest

end

theorem itemsRespelled_eq (spelling : Spelling) (place : Nat) (items : List Value) :
    itemsRespelled spelling place items = items.mapIdx fun i item =>
      respelled (spelling.below (toString (place + i))) item := by
  induction items generalizing place with
  | nil => rfl
  | cons item items ih =>
    rw [itemsRespelled, ih, List.mapIdx_cons]
    simp only [Nat.add_zero, Nat.add_assoc, Nat.add_comm 1]

theorem entriesRespelled_eq (spelling : Spelling) (entries : Fields) :
    entriesRespelled spelling entries =
      entries.map fun entry => (entry.1, respelled (spelling.below entry.1) entry.2) := by
  induction entries with
  | nil => rfl
  | cons entry rest ih => rw [entriesRespelled, ih, List.map_cons]

def contentRespelled (spelling : Spelling) : Content → Value → Value
  | .schema => respelled spelling
  | .list => listRespelled spelling
  | .map => mapRespelled spelling
  | .data => id

theorem fieldsRespelled_eq (spelling : Spelling) (fields : Fields) :
    fieldsRespelled spelling fields = fields.map fun field =>
      (field.1, contentRespelled (spelling.below field.1) (Content.under field.1) field.2) := by
  induction fields with
  | nil => rfl
  | cons field rest ih =>
    rcases field with ⟨name, value⟩
    rw [fieldsRespelled, ih, List.map_cons]
    split <;> next same => rw [same]; rfl

theorem get?_fieldsListing (types : List Value) (name : String) (fields : Fields) :
    Fields.get? name (fieldsListing types fields) =
      if name = "nullable" then none
      else (Fields.get? name fields).map fun value =>
        if name = "type" then .array types else value := by
  rw [fieldsListing,
    Fields.get?_map (fun key value => if key = "type" then .array types else value),
    Fields.get?_filter_ne]
  by_cases isFlag : name = "nullable"
  · rw [if_pos isFlag, if_pos isFlag, Option.map_none]
  · rw [if_neg isFlag, if_neg isFlag]

/-- Under other keywords a node says the same, whichever way it is spelled. -/
theorem get?_relisted {name : String} (noType : name ≠ "type") (noFlag : name ≠ "nullable")
    (wanted : Option NullPlace) (schema : Schema) :
    (relisted wanted schema).get? name = schema.get? name := by
  rw [relisted.eq_def]
  split
  · rw [Value.get?, get?_fieldsListing, if_neg noFlag, Value.get?]
    simp only [if_neg noType, Option.map_id']
  · rfl

/-- What describes a schema by fields still does. -/
theorem exists_relisted_object (wanted : Option NullPlace) (fields : Fields) :
    ∃ spelled, relisted wanted (.object fields) = .object spelled := by
  rw [relisted.eq_def]
  split
  · exact ⟨_, rfl⟩
  · exact ⟨_, rfl⟩

/-- A node stays as it is, or it has the flag and gets a list. -/
theorem relisted_cases (wanted : Option NullPlace) (schema : Schema) :
    relisted wanted schema = schema ∨
      ∃ place name, schema.target? = none ∧
        (schema.get? "nullable").bind Value.bool? = some true ∧
        schema.get? "type" = some (.string name) ∧
        (relisted wanted schema).get? "nullable" = none ∧
        (relisted wanted schema).get? "type" = some (.array (NullPlace.types name place)) := by
  rw [relisted.eq_def]
  split
  · next fields place name flagged =>
    rw [flaggedType?] at flagged
    split at flagged
    · next isFlagged =>
      rw [Bool.and_eq_true, Option.isNone_iff_eq_none, beq_iff_eq] at isFlagged
      obtain ⟨value, found, isText⟩ := Option.bind_eq_some_iff.mp flagged
      have isName : value = .string name := by
        cases value <;> simp [Value.string?] at isText
        rw [isText]
      subst isName
      refine .inr ⟨place, name, isFlagged.1, isFlagged.2, found, ?_, ?_⟩
      · rw [Value.get?, get?_fieldsListing, if_pos rfl]
      · rw [Value.get?] at found ⊢
        rw [get?_fieldsListing, if_neg (by decide), found, Option.map_some, if_pos rfl]
    · cases flagged
  · exact .inl rfl

theorem typeName?_relisted (wanted : Option NullPlace) (schema : Schema) :
    (relisted wanted schema).typeName? = schema.typeName? := by
  rcases relisted_cases wanted schema with same | ⟨place, name, -, -, named, -, listed⟩
  · rw [same]
  · rw [typeName?, typeName?, named, listed]
    by_cases isNull : name = "null"
    · subst isNull
      cases place <;> rfl
    · cases place <;> simp [NullPlace.types, Value.string?, isNull]

theorem isNullable_relisted (wanted : Option NullPlace) (schema : Schema) :
    (relisted wanted schema).isNullable = schema.isNullable := by
  rcases relisted_cases wanted schema with same | ⟨place, name, -, flag, -, noFlag, listed⟩
  · rw [same]
  · have nullable : schema.isNullable = true := by
      obtain ⟨value, found, isTrue⟩ := Option.bind_eq_some_iff.mp flag
      cases value <;> simp [Value.bool?] at isTrue
      rw [isNullable, found, isTrue, Bool.true_or]
    rw [nullable, isNullable, noFlag, listed]
    cases place <;> simp [NullPlace.types, Value.string?]

/-! ## What a node says -/

variable {spelling : Spelling}

def belowRespelled (spelling : Spelling) : Schema → Schema
  | .object fields => .object (fieldsRespelled spelling fields)
  | schema => schema

theorem respelled_eq (spelling : Spelling) (schema : Schema) :
    schema.respelled spelling = relisted (spelling []) (schema.belowRespelled spelling) := by
  cases schema <;> rfl

theorem get?_belowRespelled (name : String) (schema : Schema) :
    (schema.belowRespelled spelling).get? name =
      (schema.get? name).map (contentRespelled (spelling.below name) (Content.under name)) := by
  cases schema with
  | object fields =>
    rw [belowRespelled, Value.get?, fieldsRespelled_eq]
    exact Fields.get?_map (fun name => contentRespelled (spelling.below name) (Content.under name))
      name fields
  | _ => rfl

theorem get?_respelled {name : String} (noType : name ≠ "type") (noFlag : name ≠ "nullable")
    (schema : Schema) :
    (schema.respelled spelling).get? name =
      (schema.get? name).map (contentRespelled (spelling.below name) (Content.under name)) := by
  rw [respelled_eq, get?_relisted noType noFlag, get?_belowRespelled]

/-- What is no schema stays as it is, apart from what says the type. -/
theorem get?_respelled_data {name : String} (isData : Content.under name = .data)
    (noType : name ≠ "type") (noFlag : name ≠ "nullable") (schema : Schema) :
    (schema.respelled spelling).get? name = schema.get? name := by
  rw [get?_respelled noType noFlag, isData]
  exact Option.map_id'

theorem text?_respelled_data {name : String} (isData : Content.under name = .data)
    (noType : name ≠ "type") (noFlag : name ≠ "nullable") (schema : Schema) :
    (schema.respelled spelling).text? name = schema.text? name := by
  rw [Value.text?, get?_respelled_data isData noType noFlag, Value.text?]

@[simp] theorem description?_respelled (schema : Schema) :
    (schema.respelled spelling).description? = schema.description? :=
  text?_respelled_data (by decide) (by decide) (by decide) schema

@[simp] theorem target?_respelled (schema : Schema) :
    (schema.respelled spelling).target? = schema.target? :=
  text?_respelled_data (by decide) (by decide) (by decide) schema

@[simp] theorem format?_respelled (schema : Schema) :
    (schema.respelled spelling).format? = schema.format? :=
  text?_respelled_data (by decide) (by decide) (by decide) schema

@[simp] theorem required_respelled (schema : Schema) :
    (schema.respelled spelling).required = schema.required := by
  rw [required, get?_respelled_data (by decide) (by decide) (by decide), required]

@[simp] theorem enum_respelled (schema : Schema) :
    (schema.respelled spelling).list? "enum" = schema.list? "enum" := by
  rw [list?, get?_respelled_data (by decide) (by decide) (by decide), list?]

@[simp] theorem customType?_respelled (schema : Schema) :
    (schema.respelled spelling).customType? = schema.customType? := by
  have isData : ∀ key ∈ customTypeKeys,
      Content.under key = .data ∧ key ≠ "type" ∧ key ≠ "nullable" := by decide
  have each : ∀ key ∈ customTypeKeys, (schema.respelled spelling).text? key = schema.text? key :=
    fun key mem =>
      text?_respelled_data (isData key mem).1 (isData key mem).2.1 (isData key mem).2.2 schema
  have same : customTypeKeys.filterMap (fun key => (schema.respelled spelling).text? key) =
      customTypeKeys.filterMap fun key => schema.text? key := List.filterMap_congr each
  rw [customType?, same, customType?]

theorem get?_belowRespelled_data {name : String} (isData : Content.under name = .data)
    (schema : Schema) : (schema.belowRespelled spelling).get? name = schema.get? name := by
  rw [get?_belowRespelled, isData]
  exact Option.map_id'

@[simp] theorem typeName?_respelled (schema : Schema) :
    (schema.respelled spelling).typeName? = schema.typeName? := by
  rw [respelled_eq, typeName?_relisted, typeName?, get?_belowRespelled_data (by decide), typeName?]

@[simp] theorem isNullable_respelled (schema : Schema) :
    (schema.respelled spelling).isNullable = schema.isNullable := by
  rw [respelled_eq, isNullable_relisted, isNullable, get?_belowRespelled_data (by decide),
    get?_belowRespelled_data (by decide), isNullable]

/-- A reference keeps its flag. -/
theorem nullable_respelled {schema : Schema} {target : String}
    (isReference : schema.target? = some target) :
    (schema.respelled spelling).get? "nullable" = schema.get? "nullable" := by
  have isReference' : (schema.belowRespelled spelling).target? = some target := by
    rw [← isReference, target?, Value.text?, get?_belowRespelled_data (by decide), target?,
      Value.text?]
  rw [respelled_eq]
  rcases relisted_cases (spelling []) (schema.belowRespelled spelling) with same | ⟨_, _, none, _⟩
  · rw [same, get?_belowRespelled_data (by decide)]
  · rw [isReference'] at none
    cases none

/-- A node with the flag has a list instead if that is wanted. -/
theorem respelled_flagged {schema : Schema} {place : NullPlace} {name : String}
    (flagged : schema.flaggedType? = some name) (wanted : spelling [] = some place) :
    (schema.respelled spelling).get? "type" = some (.array (place.types name)) ∧
      (schema.respelled spelling).get? "nullable" = none := by
  have flagged' : (schema.belowRespelled spelling).flaggedType? = some name := by
    rw [← flagged, flaggedType?, flaggedType?, target?, target?, Value.text?, Value.text?,
      Value.text?, Value.text?, get?_belowRespelled_data (by decide),
      get?_belowRespelled_data (by decide), get?_belowRespelled_data (by decide)]
  rw [respelled_eq, wanted]
  cases schema with
  | object fields =>
    have named : Fields.get? "type" (fieldsRespelled spelling fields) = some (.string name) := by
      rw [flaggedType?] at flagged'
      split at flagged'
      · obtain ⟨value, found, isText⟩ := Option.bind_eq_some_iff.mp flagged'
        cases value <;> simp [Value.string?] at isText
        rw [← isText]
        exact found
      · cases flagged'
    rw [relisted.eq_def, flagged']
    simp only [belowRespelled, Value.get?, get?_fieldsListing, named]
    exact ⟨rfl, rfl⟩
  | _ => cases flagged

/-! ## Readings -/

theorem members?_respelled (combinator : Combinator) (schema : Schema) :
    (schema.respelled spelling).members? combinator =
      (schema.members? combinator).map fun members => members.mapIdx fun place member =>
        respelled (spelling.at (.member combinator place)) member := by
  have isList : Content.under combinator.keyword = .list := by cases combinator <;> decide
  have noType : combinator.keyword ≠ "type" := by cases combinator <;> decide
  have noFlag : combinator.keyword ≠ "nullable" := by cases combinator <;> decide
  rw [members?, members?, list?, list?, get?_respelled noType noFlag, isList]
  rcases schema.get? combinator.keyword with _ | _ | _ | _ | _ | items | _
  case some.array =>
    rw [Option.map_some, contentRespelled, listRespelled, itemsRespelled_eq]
    cases items with
    | nil => rfl
    | cons item items =>
      simp only [Nat.zero_add, Option.map_some, List.mapIdx_cons]
      rfl
  all_goals rfl

theorem properties?_respelled (schema : Schema) :
    (schema.respelled spelling).properties? = schema.properties?.map fun properties =>
      properties.map fun entry =>
        (entry.1, respelled (spelling.at (.property entry.1)) entry.2) := by
  have isMap : Content.under "properties" = .map := by decide
  rw [properties?, properties?, get?_respelled (by decide) (by decide), isMap]
  rcases schema.get? "properties" with _ | _ | _ | _ | _ | _ | fields
  case some.object =>
    rw [Option.map_some, contentRespelled, mapRespelled, entriesRespelled_eq]
    cases fields <;> rfl
  all_goals rfl

theorem index?_respelled (schema : Schema) :
    (schema.respelled spelling).index? =
      schema.index?.map (Option.map (respelled (spelling.at .index))) := by
  have isSchema : Content.under "additionalProperties" = .schema := by decide
  rw [index?, index?, get?_respelled (by decide) (by decide), isSchema]
  rcases schema.get? "additionalProperties" with _ | _ | value | _ | _ | _ | _
  case some.bool => cases value <;> rfl
  case some.object fields =>
    -- What is spelled otherwise is still an object, and so still a schema of further properties.
    obtain ⟨spelled, isObject⟩ := exists_relisted_object (spelling.below "additionalProperties" [])
      (fieldsRespelled (spelling.below "additionalProperties") fields)
    have same : respelled (spelling.below "additionalProperties") (.object fields) =
        .object spelled := isObject
    simp only [Option.map_some, contentRespelled, same]
    exact congrArg (fun schema => some (some schema)) same.symm
  all_goals rfl

theorem items?_respelled (schema : Schema) :
    (schema.respelled spelling).items? = schema.items?.map (respelled (spelling.at .item)) := by
  have isSchema : Content.under "items" = .schema := by decide
  rw [items?, items?, get?_respelled (by decide) (by decide), isSchema]
  rcases schema.get? "items" with _ | _ | _ | _ | _ | _ | _
  case some.object fields =>
    obtain ⟨spelled, isObject⟩ := exists_relisted_object (spelling.below "items" [])
      (fieldsRespelled (spelling.below "items") fields)
    have same : respelled (spelling.below "items") (.object fields) = .object spelled := isObject
    simp only [Option.map_some, contentRespelled, same]
    exact congrArg some same.symm
  all_goals rfl

theorem combination?_respelled (schema : Schema) :
    (schema.respelled spelling).combination? = schema.combination?.map fun found =>
      (found.1, found.2.mapIdx fun place member =>
        respelled (spelling.at (.member found.1 place)) member) := by
  rw [combination?, combination?, List.map_findSome?]
  congr 1
  funext combinator
  rw [members?_respelled, Function.comp_apply]
  cases schema.members? combinator <;> rfl

theorem isObject_respelled (schema : Schema) :
    (schema.respelled spelling).isObject = schema.isObject := by
  rw [isObject, isObject, typeName?_respelled, properties?_respelled, Option.isSome_map]

theorem isArray_respelled (schema : Schema) :
    (schema.respelled spelling).isArray = schema.isArray := by
  rw [isArray, isArray, typeName?_respelled, get?_respelled (by decide) (by decide),
    Option.isSome_map]

/-- A node is read as the same in every spelling, with its parts in theirs. -/
theorem reading_respelled (spelling : Spelling) (schema : Schema) :
    (schema.respelled spelling).reading =
      schema.reading.mapParts fun step => respelled (spelling.at step) := by
  rw [reading, reading, target?_respelled, customType?_respelled, combination?_respelled,
    enum_respelled, isObject_respelled, isArray_respelled, properties?_respelled,
    index?_respelled, items?_respelled]
  rcases schema.target? with _ | target
  · rcases schema.customType? with _ | text
    · rcases schema.combination? with _ | ⟨combinator, members⟩
      · rcases schema.list? "enum" with _ | values
        · dsimp only [Option.map_none]
          split
          · cases schema.properties? <;> rfl
          · split <;> rfl
        · rfl
      · rfl
    · rfl
  · rfl

end Schema

end SchemaTypes
