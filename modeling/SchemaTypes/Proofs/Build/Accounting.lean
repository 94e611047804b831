import SchemaTypes.Build.Session
import SchemaTypes.Proofs.Build.Yield
import SchemaTypes.Proofs.TypeTree.Traversal

/-! # What builds leave in their context

A build yields its tree, uses exactly the custom types that stand in the tree, and finds what its
node and the parts of the node have to report. From this the tree and the findings of a node follow
from those of its parts, and a run of many calls from the calls by themselves.
-/

namespace SchemaTypes

open SchemaTypes.Json

def Call.names (answer : Option TypeTree) : Call → List String
  | .build _ _ => answer.elim [] TypeTree.customs
  | .record name => [name]

namespace Builder

def tree (builder : Builder) (schema : Schema) : TypeTree := (builder.build schema).result

def findings (builder : Builder) (schema : Schema) : Pointer → List Finding :=
  (builder.build schema).findingsAt

/-- The tree of a node, given those of its parts. -/
def assemble (builder : Builder) (tree : Schema → TypeTree) (schema : Schema) : TypeTree :=
  match schema.reading with
  | .reference target => builder.reference schema target
  | .custom text => annotated schema (.custom text)
  | .combination combinator members =>
    annotated schema (combined schema combinator (members.map tree))
  | .enumeration values => annotated schema (enumeration schema values)
  | .object properties index =>
    annotated schema (.interface (properties.map fun entry => (entry.1, tree entry.2))
      schema.required (index.map fun part => part.elim .unknown tree))
  | .array items => annotated schema (.array (items.elim .unknown tree))
  | .scalar => annotated schema (scalar schema).result

def ownFindings (schema : Schema) (pointer : Pointer) : List Finding :=
  match schema.reading with
  | .combination combinator _ =>
    if schema.properties?.isSome then [⟨pointer, combinator⟩] else []
  | _ => []

/-- A build yields its tree and uses the custom types in it. -/
def Accounts (builder : Builder) (schema : Schema) : Prop :=
  (builder.build schema).Yields (builder.tree schema) (builder.tree schema).customs
    (builder.findings schema)

variable {builder : Builder}

theorem members_yields (combinator : Combinator) (place : Nat) {members : List Schema}
    (parts : ∀ member ∈ members, builder.Accounts member) :
    (builder.members combinator place members).Yields (members.map builder.tree)
      (members.flatMap fun member => (builder.tree member).customs)
      fun pointer =>
        (members.mapIdx fun i member => (Step.member combinator (place + i), member)).flatMap
          fun part => builder.findings part.2 (pointer ++ part.1.pointer) := by
  induction members generalizing place with
  | nil =>
    rw [Builder.members]
    exact Building.yields_pure _
  | cons member rest ih =>
    rw [Builder.members]
    have first := (parts member List.mem_cons_self).inside (Step.member combinator place).pointer
    have others := ih (place + 1) fun m h => parts m (List.mem_cons_of_mem _ h)
    simp only [Nat.add_assoc, Nat.add_comm 1] at others
    simpa using first.bind (others.map _)

theorem properties_yields {fields : Fields}
    (parts : ∀ entry ∈ fields, builder.Accounts entry.2) :
    (builder.properties fields).Yields (fields.map fun entry => (entry.1, builder.tree entry.2))
      (fields.flatMap fun entry => (builder.tree entry.2).customs)
      fun pointer => fields.flatMap fun entry => builder.findings entry.2
        (pointer ++ (Step.property entry.1).pointer) := by
  induction fields with
  | nil =>
    rw [Builder.properties]
    exact Building.yields_pure _
  | cons entry rest ih =>
    rcases entry with ⟨name, schema⟩
    rw [Builder.properties]
    have first := (parts (name, schema) List.mem_cons_self).inside (Step.property name).pointer
    have others := ih fun e h => parts e (List.mem_cons_of_mem _ h)
    simpa using first.bind (others.map _)

theorem scalar_yields (schema : Schema) :
    ∃ kind, (scalar schema).Yields kind (TypeTree.plain kind).customs fun _ => [] := by
  rw [scalar]
  split
  · exact ⟨_, Building.yields_pure _⟩
  · split
    · exact ⟨_, Building.yields_pure _⟩
    · split
      · exact ⟨_, Building.yields_pure _⟩
      · exact ⟨_, Building.yields_naming _ _⟩

theorem part_yields (step : Step) {part : Option Schema}
    (accounts : ∀ schema, part = some schema → builder.Accounts schema) :
    (builder.part step part).Yields (part.elim .unknown builder.tree)
      (part.elim [] fun schema => (builder.tree schema).customs)
      fun pointer =>
        part.elim [] fun schema => builder.findings schema (pointer ++ step.pointer) := by
  cases part with
  | none =>
    rw [Builder.part]
    exact Building.yields_pure _
  | some schema =>
    rw [Builder.part]
    exact (accounts schema rfl).inside _

theorem index_yields {index : Option (Option Schema)}
    (accounts : ∀ schema, index = some (some schema) → builder.Accounts schema) :
    (builder.index index).Yields (index.map fun part => part.elim .unknown builder.tree)
      (index.join.elim [] fun schema => (builder.tree schema).customs)
      fun pointer => index.join.elim [] fun schema =>
        builder.findings schema (pointer ++ Step.index.pointer) := by
  cases index with
  | none =>
    rw [Builder.index]
    exact Building.yields_pure _
  | some part =>
    rw [Builder.index]
    exact (part_yields .index fun schema h => accounts schema (congrArg some h)).map some

theorem annotated_customs (schema : Schema) (kind : Kind TypeTree) :
    (annotated schema kind).customs = (TypeTree.plain kind).customs :=
  TypeTree.customs_plain _ kind

theorem combined_customs (schema : Schema) (combinator : Combinator) (trees : List TypeTree) :
    (TypeTree.plain (combined schema combinator trees)).customs =
      trees.flatMap TypeTree.customs := by
  cases combinator <;> exact TypeTree.customs_node (by simp [combined]) _

/-- What one build yields, given that the builds of the parts keep account. -/
theorem build_yields_of_parts (schema : Schema)
    (parts : ∀ part ∈ schema.reading.parts, builder.Accounts part.2) :
    (builder.build schema).Yields (builder.assemble builder.tree schema)
      (builder.assemble builder.tree schema).customs
      fun pointer => ownFindings schema pointer ++ schema.reading.parts.flatMap fun part =>
        builder.findings part.2 (pointer ++ part.1.pointer) := by
  rw [build]
  split
  case h_1 target read =>
    simp only [assemble, ownFindings, read, Reading.parts]
    exact Building.yields_pure _
  case h_2 text read =>
    simp only [assemble, ownFindings, read, Reading.parts]
    exact Building.yields_naming _ _
  case h_3 combinator members read =>
    have each : ∀ member ∈ members, builder.Accounts member := by
      intro member mem
      obtain ⟨step, isPart⟩ := Reading.exists_part_of_mem mem
      exact parts _ (read ▸ isPart)
    have trees := (members_yields combinator 0 each).map
      fun trees => annotated schema (combined schema combinator trees)
    simp only [Nat.zero_add] at trees
    simp only [assemble, ownFindings, read, Reading.parts, bind_pure_comp]
    split
    · refine ((Building.yields_report combinator).bind trees).congr ?_ fun pointer => rfl
      simp [annotated_customs, combined_customs, List.flatMap_map]
    · refine trees.congr ?_ fun pointer => rfl
      simp [annotated_customs, combined_customs, List.flatMap_map]
  case h_4 values read =>
    simp only [assemble, ownFindings, read, Reading.parts]
    exact Building.yields_pure _
  case h_5 properties index read =>
    have each : ∀ entry ∈ properties, builder.Accounts entry.2 := by
      intro entry mem
      exact parts _ (read ▸ Reading.property_mem_parts mem)
    have further : ∀ part, index = some (some part) → builder.Accounts part := by
      rintro part rfl
      exact parts _ (read ▸ Reading.index_mem_parts properties part)
    simp only [assemble, ownFindings, read, Reading.parts, bind_pure_comp]
    refine ((properties_yields each).bind ((index_yields further).map _)).congr ?_ ?_
    · rw [annotated_customs, TypeTree.plain, TypeTree.customs_node (by simp)]
      rcases index with _ | _ | _ <;>
        simp [Kind.parts, List.flatMap_map, TypeTree.customs_unknown]
    · intro pointer
      rcases index with _ | _ | _ <;> simp [List.flatMap_map]
  case h_6 items read =>
    have each : ∀ part, items = some part → builder.Accounts part := by
      rintro part rfl
      exact parts _ (read ▸ Reading.item_mem_parts part)
    simp only [assemble, ownFindings, read, Reading.parts, bind_pure_comp]
    refine ((part_yields .item each).map _).congr ?_ ?_
    · rw [annotated_customs, TypeTree.plain, TypeTree.customs_node (by simp)]
      cases items <;> simp [Kind.parts, TypeTree.customs_unknown]
    · intro pointer
      cases items <;> simp
  case h_7 read =>
    simp only [assemble, ownFindings, read, Reading.parts]
    rcases scalar_yields schema with ⟨kind, yields⟩
    rw [yields.result_eq, annotated_customs]
    exact yields.map (annotated schema)

/-- Every build keeps account: its tree depends on nothing that the context holds, and what it adds
to the custom types in use are those of the tree. -/
theorem build_yields (builder : Builder) (schema : Schema) : builder.Accounts schema := by
  induction schema using Schema.inductionOnParts with
  | node schema parts =>
    have yields := build_yields_of_parts schema parts
    rw [Accounts, tree, yields.result_eq, findings, yields.findingsAt_eq]
    exact yields

/-- The tree of a node follows from those of its parts. -/
theorem tree_eq (builder : Builder) (schema : Schema) :
    builder.tree schema = builder.assemble builder.tree schema :=
  (build_yields_of_parts schema fun part _ => build_yields builder part.2).result_eq

/-- What is found at a node comes before what is found at its parts. -/
theorem findings_eq (builder : Builder) (schema : Schema) (pointer : Pointer) :
    builder.findings schema pointer =
      ownFindings schema pointer ++ schema.reading.parts.flatMap fun part =>
        builder.findings part.2 (pointer ++ part.1.pointer) := by
  rw [findings,
    (build_yields_of_parts schema fun part _ => build_yields builder part.2).findingsAt_eq]

def rootTree (builder : Builder) (name : Option String) (schema : Option Schema) : TypeTree :=
  let tree := schema.elim .unknown builder.tree
  name.elim tree fun name => tree.named (builder.affixes.typeName name)

theorem root_yields (builder : Builder) (name : Option String) (schema : Option Schema) :
    (builder.root name schema).Yields (builder.rootTree name schema)
      (builder.rootTree name schema).customs
      fun pointer => schema.elim [] fun schema => builder.findings schema pointer := by
  have customs : (builder.rootTree name schema).customs =
      (schema.elim .unknown builder.tree).customs := by
    cases name with
    | none => rfl
    | some name => exact TypeTree.customs_mapAttributes _ _
  rw [customs]
  cases schema with
  | none => cases name <;> exact Building.yields_pure _
  | some schema =>
    simp only [root, bind_pure_comp]
    cases name <;> exact (build_yields builder schema).map _

theorem roots_yields (builder : Builder) (schemas : Fields) :
    (builder.roots schemas).Yields
      (schemas.map fun entry => builder.rootTree (some entry.1) (some entry.2))
      (schemas.flatMap fun entry => (builder.rootTree (some entry.1) (some entry.2)).customs)
      fun pointer => schemas.flatMap fun entry =>
        builder.findings entry.2 (pointer ++ Reference.place entry.1) :=
  Building.yields_mapM fun entry _ =>
    (root_yields builder (some entry.1) (some entry.2)).inside (Reference.place entry.1)

def alone (builder : Builder) (call : Call) : Option TypeTree × Context :=
  (builder.call call).run {}

theorem call_yields (builder : Builder) (call : Call) :
    (builder.call call).Yields (builder.alone call).1 (call.names (builder.alone call).1)
      (builder.call call).findingsAt := by
  cases call with
  | build name schema =>
    have yields := (root_yields builder name schema).map some
    rw [alone, Builder.call, yields, yields.findingsAt_eq]
    exact yields
  | record name =>
    have yields := Building.yields_naming name (none : Option TypeTree)
    rw [alone, Builder.call, yields, yields.findingsAt_eq]
    exact yields

theorem alone_findings (builder : Builder) (call : Call) :
    (builder.alone call).2.findings = (builder.call call).findingsAt [] := by
  rw [alone, call_yields]
  rfl

theorem session_yields (builder : Builder) (calls : List Call) :
    (builder.session calls).Yields (calls.map fun call => (builder.alone call).1)
      (calls.flatMap fun call => call.names (builder.alone call).1)
      fun pointer => calls.flatMap fun call => (builder.call call).findingsAt pointer :=
  Building.yields_mapM fun call _ => call_yields builder call

/-- A run of calls gives every call the answer that it has by itself. The names in use are those of
all calls, each at its first occurrence and no others; the findings are those of the calls by
themselves, one after the other; and no call leaves another path than it has found. -/
theorem session_accounts (builder : Builder) (calls : List Call) :
    let (answers, context) := (builder.session calls).run {}
    answers = calls.map (fun call => (builder.alone call).1) ∧
      context.used = (calls.flatMap fun call => call.names (builder.alone call).1).eraseDups ∧
      (∀ name, name ∈ context.used ↔ ∃ call ∈ calls, name ∈ call.names (builder.alone call).1) ∧
      context.findings = calls.flatMap (fun call => (builder.alone call).2.findings) ∧
      context.path = [] ∧
      ∀ call before, ((builder.call call).run before).2.path = before.path := by
  rw [session_yields]
  have used := Context.foldl_record_empty
    (calls.flatMap fun call => call.names (builder.alone call).1)
  refine ⟨rfl, used, ?_, ?_, ?_, ?_⟩
  · intro name
    rw [Context.extend, used, List.mem_eraseDups, List.mem_flatMap]
  · simp [alone_findings, Context.pointer]
  · rw [Context.extend_path]
  · intro call before
    rw [call_yields, Context.extend_path]

end Builder

end SchemaTypes
