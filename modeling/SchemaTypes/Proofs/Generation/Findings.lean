import Mathlib.Data.List.Forall2
import SchemaTypes.Generation.Basic
import SchemaTypes.Proofs.Build.References
import SchemaTypes.Proofs.Schema.Visits
import SchemaTypes.Proofs.Yaml.Names

/-! # What is found in a document

A run finds something at every node whose properties are hidden by a combinator, and nothing else,
in the order in which the nodes are visited. The text of a finding leads back to the node: it is the
fragment of the place of the node, and places of nodes that are visited are different.
-/

namespace SchemaTypes

open SchemaTypes.Json

/-- Properties stand beside a combinator that has members, in a node that is neither a reference nor
has a type of its own. -/
def Schema.hidesProperties (schema : Schema) : Bool :=
  schema.target?.isNone && schema.customType?.isNone && schema.properties?.isSome &&
    Combinator.all.any fun combinator => (schema.members? combinator).isSome

def Document.visits (document : Document) : List (Pointer × Schema) :=
  document.schemas.flatMap fun entry => Schema.visits (Reference.place entry.1) entry.2

/-- A finding tells of a visited node: its text leads back to the node, and it names the combinator
whose members the node is built from. -/
structure Finding.Tells (document : Document) (builder : Builder) (finding : Finding)
    (visit : Pointer × Schema) : Prop where
  place : finding.pointer = visit.1
  leads : document.resolve? finding.pointer.fragment = some visit.2
  follows : ∃ members, visit.2.members? finding.combinator = some members ∧
    visit.2.reading = .combination finding.combinator members ∧
    builder.tree visit.2 = Builder.annotated visit.2
      (Builder.combined visit.2 finding.combinator (members.map builder.tree))

namespace Schema

theorem combination?_isSome (schema : Schema) :
    schema.combination?.isSome =
      Combinator.all.any fun combinator => (schema.members? combinator).isSome := by
  rw [combination?, Bool.eq_iff_iff, List.any_eq_true, List.findSome?_isSome_iff]
  simp only [Option.isSome_map]

/-- A node hides properties if it has some and is read as a combination. -/
theorem hidesProperties_iff (schema : Schema) :
    schema.hidesProperties ↔
      schema.properties?.isSome ∧
        ∃ combinator members, schema.reading = .combination combinator members := by
  rw [hidesProperties, ← combination?_isSome]
  constructor
  · intro hides
    simp only [Bool.and_eq_true, Option.isNone_iff_eq_none, Option.isSome_iff_exists] at hides
    rcases hides with ⟨⟨⟨noTarget, noCustom⟩, properties⟩, ⟨combinator, members⟩, combination⟩
    refine ⟨Option.isSome_iff_exists.mpr properties, combinator, members, ?_⟩
    rw [reading, noTarget, noCustom, combination]
  · rintro ⟨properties, combinator, members, read⟩
    have combination := reading_combination read
    have noTarget : schema.target? = none := by
      rw [reading] at read
      grind
    have noCustom : schema.customType? = none := by
      rw [reading] at read
      grind
    simp [noTarget, noCustom, properties, combination]

/-- What is visited is what some way leads to, at the place that the way leads to. -/
theorem mem_visits_iff {place inner : Pointer} {schema node : Schema} :
    (inner, node) ∈ schema.visits place ↔
      ∃ way, schema.HasAt way node ∧ inner = place ++ way.flatMap Step.pointer := by
  induction schema using inductionOnParts generalizing place with
  | node schema parts =>
    rw [visits_eq, List.mem_cons, List.mem_flatMap]
    constructor
    · rintro (here | ⟨⟨step, part⟩, isPart, mem⟩)
      · cases here
        exact ⟨[], rfl, (List.append_nil _).symm⟩
      · rcases (parts _ isPart).mp mem with ⟨way, there, rfl⟩
        refine ⟨step :: way, ⟨part, isPart, there⟩, ?_⟩
        rw [List.flatMap_cons, List.append_assoc]
    · rintro ⟨way, there, rfl⟩
      cases way with
      | nil =>
        cases there
        exact .inl (by rw [List.flatMap_nil, List.append_nil])
      | cons step way =>
        rcases there with ⟨part, isPart, there⟩
        refine .inr ⟨(step, part), isPart, (parts _ isPart).mpr ⟨way, there, ?_⟩⟩
        rw [List.flatMap_cons, List.append_assoc]

end Schema

namespace Builder

variable {builder : Builder}

/-- What is found below a node is what the visited nodes have to report of themselves. -/
theorem findings_visits (builder : Builder) (schema : Schema) (place : Pointer) :
    builder.findings schema place =
      (schema.visits place).flatMap fun visit => ownFindings visit.2 visit.1 := by
  induction schema using Schema.inductionOnParts generalizing place with
  | node schema parts =>
    rw [findings_eq, Schema.visits_eq, List.flatMap_cons, List.flatMap_assoc]
    congr 1
    exact List.flatMap_congr fun part isPart => parts part isPart _

theorem buildAll_findings (builder : Builder) (schemas : Fields) :
    (builder.buildAll schemas).2.findings =
      schemas.flatMap fun entry => builder.findings entry.2 (Reference.place entry.1) := by
  rw [buildAll, roots_yields]
  rfl

/-- A node that hides properties reports the combinator that it is read as. -/
theorem ownFindings_of_hides {schema : Schema} (hides : schema.hidesProperties)
    (place : Pointer) :
    ∃ combinator members, schema.reading = .combination combinator members ∧
      ownFindings schema place = [⟨place, combinator⟩] := by
  obtain ⟨properties, combinator, members, read⟩ := schema.hidesProperties_iff.mp hides
  refine ⟨combinator, members, read, ?_⟩
  simp only [ownFindings, read, if_pos properties]

theorem ownFindings_of_not_hides {schema : Schema} (hides : schema.hidesProperties = false)
    (place : Pointer) : ownFindings schema place = [] := by
  rw [← Bool.not_eq_true, Schema.hidesProperties_iff] at hides
  rw [ownFindings]
  split
  · next combinator members read =>
    exact if_neg fun properties => hides ⟨properties, combinator, members, read⟩
  · rfl

end Builder

namespace Document

/-- What a text is read as has no name twice in one object. -/
theorem parse_hasDistinctNames {text source : String} {document : Document}
    (read : parse text source = .ok document) : document.root.HasDistinctNames := by
  rw [parse] at read
  split at read
  · split at read
    · next found =>
      cases read
      exact Value.parse?_hasDistinctNames found
    · cases read
  · split at read
    · next found =>
      cases read
      exact Yaml.value?_hasDistinctNames found
    · cases read

theorem schemas_eq_of_mem {document : Document} {entry : String × Value}
    (mem : entry ∈ document.schemas) :
    document.root.at? ["components", "schemas"] = some (.object document.schemas) := by
  rw [schemas] at mem ⊢
  cases found : document.root.at? ["components", "schemas"] with
  | none => simp [found] at mem
  | some value =>
    cases value with
    | object fields => rfl
    | _ => simp [found, Value.fields?] at mem

theorem nodup_schemas {document : Document} (distinct : document.root.HasDistinctNames) :
    (document.schemas.map (·.1)).Nodup := by
  rcases document.schemas.eq_nil_or_concat' with none | ⟨before, last, some⟩
  · rw [none]
    exact List.nodup_nil
  · have mem : last ∈ document.schemas := by
      rw [some]
      exact List.mem_concat_self
    have components := schemas_eq_of_mem mem
    rcases distinct.at? components with _ | _ | _ | _ | _ | ⟨names, -⟩
    exact names

theorem at?_place {document : Document} (names : (document.schemas.map (·.1)).Nodup)
    {entry : String × Value} (mem : entry ∈ document.schemas) :
    document.root.at? (Reference.place entry.1) = some entry.2 := by
  calc document.root.at? (["components", "schemas"] ++ [entry.1])
    _ = (Value.object document.schemas).at? [entry.1] := by
      rw [Value.at?_append, schemas_eq_of_mem mem, Option.bind_some]
    _ = some entry.2 := by rw [Value.at?_field, Fields.get?_of_mem names mem]

theorem mem_visits_iff {document : Document} {place : Pointer} {node : Schema} :
    (place, node) ∈ document.visits ↔
      ∃ entry ∈ document.schemas, ∃ way, Schema.HasAt entry.2 way node ∧
        place = Reference.place entry.1 ++ way.flatMap Step.pointer := by
  simp only [visits, List.mem_flatMap, Schema.mem_visits_iff]

/-- What is visited in a document stands at its place. -/
theorem at?_visits {document : Document} (distinct : document.root.HasDistinctNames) :
    ∀ visit ∈ document.visits, document.root.at? visit.1 = some visit.2 := by
  intro visit mem
  rcases List.mem_flatMap.mp mem with ⟨entry, declared, mem⟩
  have here := at?_place (nodup_schemas distinct) declared
  exact Schema.at?_visits (distinct.at? here) here visit mem

theorem place_ne_nil {document : Document} : ∀ visit ∈ document.visits, visit.1 ≠ [] := by
  intro visit mem
  rcases List.mem_flatMap.mp mem with ⟨entry, -, mem⟩
  rcases Schema.exists_of_mem_visits visit mem with ⟨rest, same⟩
  rw [same]
  exact List.cons_ne_nil _ _

/-- No two visited nodes of a document have the same place. -/
theorem nodup_visits {document : Document} (distinct : document.root.HasDistinctNames) :
    (document.visits.map (·.1)).Nodup := by
  rw [visits, List.map_flatMap, List.nodup_flatMap]
  refine ⟨fun entry declared => ?_, ?_⟩
  · exact Schema.nodup_visits (distinct.at? (at?_place (nodup_schemas distinct) declared))
  · refine (List.pairwise_map.mp (nodup_schemas distinct)).imp fun different => ?_
    apply Schema.disjoint_visits
    intro rest further same
    simp only [Reference.place, List.cons_append, List.cons.injEq, true_and] at same
    exact different same.1

end Document

theorem Settings.generate_findings (settings : Settings) (document : Document) :
    (settings.generate document).findings =
      document.visits.flatMap fun visit => Builder.ownFindings visit.2 visit.1 := by
  rw [Document.visits, List.flatMap_assoc]
  change (Builder.buildAll ⟨settings.affixes, document.schemas⟩ document.schemas).2.findings = _
  rw [Builder.buildAll_findings]
  exact List.flatMap_congr fun entry _ => Builder.findings_visits _ entry.2 _

/-- What each item that passes a test brings stands beside the item, if the others bring
nothing. -/
theorem forall₂_flatMap_filter {α β : Type} {brings : α → List β} {test : α → Bool}
    {related : β → α → Prop} {items : List α}
    (passes : ∀ a ∈ items, test a → ∃ b, brings a = [b] ∧ related b a)
    (fails : ∀ a ∈ items, test a = false → brings a = []) :
    List.Forall₂ related (items.flatMap brings) (items.filter test) := by
  induction items with
  | nil => exact .nil
  | cons a items ih =>
    have others := ih (fun a mem => passes a (List.mem_cons_of_mem _ mem))
      fun a mem => fails a (List.mem_cons_of_mem _ mem)
    rw [List.flatMap_cons]
    cases passed : test a with
    | true =>
      obtain ⟨b, same, here⟩ := passes a List.mem_cons_self passed
      rw [List.filter_cons_of_pos passed, same]
      exact .cons here others
    | false =>
      rw [List.filter_cons_of_neg (by simp [passed]), fails a List.mem_cons_self passed]
      exact others

/-- A run finds something exactly at the nodes that hide properties, among the nodes that a way
through the readings leads to and in the order of the visits. Each finding tells of its node, and no
two findings have the same text. -/
theorem Settings.findings_exact (settings : Settings) (document : Document)
    (distinct : document.root.HasDistinctNames) :
    let findings := (settings.generate document).findings
    List.Forall₂ (Finding.Tells document ⟨settings.affixes, document.schemas⟩) findings
      (document.visits.filter fun visit => visit.2.hidesProperties) ∧
    (∀ place node, (place, node) ∈ document.visits ↔
      ∃ entry ∈ document.schemas, ∃ way, Schema.HasAt entry.2 way node ∧
        place = Reference.place entry.1 ++ way.flatMap Step.pointer) ∧
    (findings.map fun finding => finding.pointer.fragment).Nodup := by
  intro findings
  have each : List.Forall₂ (Finding.Tells document ⟨settings.affixes, document.schemas⟩) findings
      (document.visits.filter fun visit => visit.2.hidesProperties) := by
    rw [show findings = _ from settings.generate_findings document]
    refine forall₂_flatMap_filter (fun visit mem hides => ?_) fun visit _ hides =>
      Builder.ownFindings_of_not_hides hides visit.1
    obtain ⟨combinator, members, read, found⟩ := Builder.ownFindings_of_hides hides visit.1
    refine ⟨⟨visit.1, combinator⟩, found, rfl, ?_, members, Schema.reading_members read, read, ?_⟩
    · rw [Document.resolve?_fragment _ (Document.place_ne_nil visit mem)]
      exact Document.at?_visits distinct visit mem
    · rw [Builder.tree_eq, Builder.assemble, read]
  have places : findings.map (·.pointer) =
      (document.visits.filter fun visit => visit.2.hidesProperties).map (·.1) := by
    rw [← List.forall₂_eq_eq_eq, List.forall₂_map_left_iff, List.forall₂_map_right_iff]
    exact each.imp fun _ _ tells => tells.place
  have nodup : (findings.map (·.pointer)).Nodup := by
    rw [places]
    exact (Document.nodup_visits distinct).sublist (List.filter_sublist.map _)
  have nonempty : ∀ pointer ∈ findings.map (·.pointer), pointer ≠ [] := by
    rw [places]
    intro pointer mem
    rcases List.mem_map.mp mem with ⟨visit, isVisit, rfl⟩
    exact Document.place_ne_nil visit (List.mem_filter.mp isVisit).1
  have texts : findings.map (fun finding => finding.pointer.fragment) =
      (findings.map (·.pointer)).map Pointer.fragment := by
    rw [List.map_map]
    rfl
  refine ⟨each, fun place node => Document.mem_visits_iff, ?_⟩
  rw [texts]
  exact nodup.map_on fun pointer mem other mem' =>
    Pointer.fragment_inj (nonempty pointer mem) (nonempty other mem')

/-- A property without a name, in a component with a slash and a tilde in its key. -/
theorem Settings.findings_exact_escaped :
    let node : Schema := .object [("properties", .object [("id", .null)]),
      ("anyOf", .array [.null]), ("allOf", .array [.null])]
    let component : Schema := .object [("properties", .object [("", node)])]
    let document := Document.ofValue
      (.object [("components", .object [("schemas", .object [("a/b~", component)])])])
    document.root.HasDistinctNames ∧
    ∃ finding, (({} : Settings).generate document).findings = [finding] ∧
      finding.combinator = .allOf ∧
      finding.pointer.fragment = "#/components/schemas/a~1b~0/properties/" ∧
      document.resolve? "#/components/schemas/a~1b~0/properties/" = some node := by
  intro node component document
  have single {name : String} {value : Value} (here : value.HasDistinctNames) :
      (Value.object [(name, value)]).HasDistinctNames :=
    .object (List.nodup_singleton _) (List.forall_mem_singleton.mpr here)
  have list : (Value.array [.null]).HasDistinctNames := .array (List.forall_mem_singleton.mpr .null)
  have below : node.HasDistinctNames := by
    refine .object (by decide) ?_
    rw [List.forall_mem_cons, List.forall_mem_cons, List.forall_mem_singleton]
    exact ⟨single .null, list, list⟩
  have distinct : document.root.HasDistinctNames := single (single (single (single (single below))))
  have visits : document.visits.filter (fun visit => visit.2.hidesProperties) =
      [(["components", "schemas", "a/b~", "properties", ""], node)] := by
    have children : component.reading.parts = [(.property "", node)] := rfl
    have members : node.reading.parts = [(.member .allOf 0, .null)] := rfl
    have leaf : (Schema.reading .null).parts = [] := rfl
    change (([("a/b~", component)] : Fields).flatMap _).filter _ = _
    simp only [List.flatMap_cons, List.flatMap_nil, Schema.visits_eq _ component, children,
      Schema.visits_eq _ node, members, Schema.visits_eq _ .null, leaf]
    rfl
  obtain ⟨each, -, -⟩ := Settings.findings_exact {} document distinct
  rw [visits] at each
  obtain ⟨finding, rest, tells, none, found⟩ := List.forall₂_cons_right_iff.mp each
  rw [List.forall₂_nil_right_iff] at none
  subst none
  obtain ⟨members, some, read, -⟩ := tells.follows
  have fragment : finding.pointer.fragment = "#/components/schemas/a~1b~0/properties/" := by
    rw [tells.place]
    decide
  have strongest : node.reading = .combination .allOf [.null] := rfl
  rw [strongest, Reading.combination.injEq] at read
  exact ⟨distinct, finding, found, read.1.symm, fragment, fragment ▸ tells.leads⟩

end SchemaTypes
