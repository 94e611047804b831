import SchemaTypes.Proofs.Build.Parts
import SchemaTypes.Proofs.Schema.Form

/-! # The strongest form decides

What is built from a node depends on its strongest form and on what the node says in it. Keywords of
weaker forms can stand beside without any influence on the type, the custom types in use or what is
found in the parts; properties beside a combinator are mentioned, and that is all.
-/

namespace SchemaTypes

open SchemaTypes.Json Reading

namespace Builder

variable {schema other : Schema} {form : Form}

theorem annotated_of_agree (agree : form.Agree schema other) (kind : Kind TypeTree) :
    annotated schema kind = annotated other kind := by
  rw [annotated.eq_def, annotated.eq_def, agree.description, agree.nullable]

theorem combined_of_agree {combinator : Combinator}
    (agree : (Form.combination combinator).Agree schema other) (members : List TypeTree) :
    combined schema combinator members = combined other combinator members := by
  have discriminator (isKeyword : "discriminator" ∈ (Form.combination combinator).keywords) :
      discriminator? schema = discriminator? other := by
    rw [discriminator?, agree.keywords _ isKeyword, discriminator?]
  cases combinator with
  | allOf => rfl
  | oneOf => rw [combined, combined, discriminator (by decide)] <;> simp
  | anyOf => rw [combined, combined, discriminator (by decide)] <;> simp

theorem enumeration_of_agree (agree : Form.enumeration.Agree schema other) (values : List Value) :
    enumeration schema values = enumeration other values := by
  have ofStrings : (schema.typeName? == some "string") = (other.typeName? == some "string") := by
    rw [Bool.eq_iff_iff, beq_iff_eq, beq_iff_eq]
    exact agree.type
  rw [enumeration, enumeration, ofStrings]

theorem scalar_of_agree (agree : Form.scalar.Agree schema other) :
    scalar schema = scalar other := by
  have typeName : schema.typeName? = other.typeName? := agree.type
  have format : schema.format? = other.format? := by
    rw [Schema.format?, Value.text?, agree.keywords "format" (by decide), Schema.format?,
      Value.text?]
  rw [scalar, scalar, typeName, format]

/-- Nodes that are read in one form and say the same in it are put together from their parts in the
same way. -/
theorem assemble_of_agree (builder : Builder) (agree : form.Agree schema other)
    (read : schema.reading = form.reading schema) (read' : other.reading = form.reading other)
    (tree : Schema → TypeTree) : builder.assemble tree schema = builder.assemble tree other := by
  rw [assemble, assemble, read, read', agree.reading]
  cases form with
  | combination combinator =>
    rw [Form.reading]
    dsimp only
    rw [annotated_of_agree agree, combined_of_agree agree]
  | enumeration =>
    rw [Form.reading]
    dsimp only
    rw [annotated_of_agree agree, enumeration_of_agree agree]
  | object =>
    have required : schema.required = other.required := by
      rw [Schema.required, Schema.required, agree.keywords "required" (by decide)]
    rw [Form.reading]
    dsimp only
    rw [annotated_of_agree agree, required]
  | array => exact annotated_of_agree agree _
  | scalar =>
    rw [Form.reading]
    dsimp only
    rw [annotated_of_agree agree, scalar_of_agree agree]

/-- A node is mentioned if a combinator is followed in it and properties are not. -/
theorem ownFindings_of_form (read : schema.reading = form.reading schema) (place : Pointer) :
    ownFindings schema place =
      if schema.mixesProperties then form.combinator?.toList.map (Finding.mk place) else [] := by
  rw [ownFindings, read]
  cases form with
  | combination combinator =>
    have combined : schema.combination?.isSome := by
      rw [Schema.reading_combination read]
      rfl
    rw [Schema.mixesProperties, combined, Bool.and_true]
    rfl
  | _ => exact (ite_self _).symm

theorem findings_of_form (builder : Builder) (read : schema.reading = form.reading schema)
    (place : Pointer) : builder.findings schema place =
      (if schema.mixesProperties then form.combinator?.toList.map (Finding.mk place) else []) ++
        (form.reading schema).parts.flatMap fun part =>
          builder.findings part.2 (place ++ part.1.pointer) := by
  rw [findings_eq, ownFindings_of_form read, read]

/-- Two nodes without targets and custom types that have the same strongest form and say the same in
it are built into the same type with the same uses. What is found is the same as well, but that each
node may be mentioned itself, if it has properties beside the combinator that is followed. -/
theorem strongest_form_decides (builder : Builder) (name : Option String)
    (noTargets : schema.target? = none ∧ other.target? = none)
    (noCustoms : schema.customType? = none ∧ other.customType? = none)
    (strongest : schema.form? = some form ∧ other.form? = some form)
    (agree : form.Agree schema other) (before : Context) :
    let own (node : Schema) : List Finding :=
      if node.mixesProperties then form.combinator?.toList.map (Finding.mk before.pointer) else []
    let (tree, after) := (builder.root name (some schema)).run before
    let (same, otherwise) := (builder.root name (some other)).run before
    tree = same ∧ after.used = otherwise.used ∧ after.path = otherwise.path ∧
      ∃ below, after.findings = before.findings ++ own schema ++ below ∧
        otherwise.findings = before.findings ++ own other ++ below := by
  intro own
  have read := Schema.reading_of_form? noTargets.1 noCustoms.1 strongest.1
  have read' := Schema.reading_of_form? noTargets.2 noCustoms.2 strongest.2
  have trees : builder.tree schema = builder.tree other := by
    rw [tree_eq, tree_eq builder other]
    exact builder.assemble_of_agree agree read read' builder.tree
  have roots : builder.rootTree name (some schema) = builder.rootTree name (some other) := by
    rw [rootTree, rootTree, Option.elim_some, Option.elim_some, trees]
  rw [root_yields, root_yields, roots]
  refine ⟨rfl, ?_, ?_, (form.reading schema).parts.flatMap fun part =>
    builder.findings part.2 (before.pointer ++ part.1.pointer), ?_, ?_⟩
  · rw [Context.extend, Context.extend]
  · rw [Context.extend_path, Context.extend_path]
  · change before.findings ++ builder.findings schema before.pointer = _
    rw [builder.findings_of_form read, List.append_assoc]
  · change before.findings ++ builder.findings other before.pointer = _
    rw [builder.findings_of_form read', agree.reading, List.append_assoc]

/-- A union with properties, and the same union beside an intersection and a type name. -/
theorem strongest_form_decides_union :
    let named (name : String) : Schema := .object [("type", .string name)]
    let members : Value := .array [named "string", .object [("x-ts-type", .string "Big")]]
    let tag : Value := .object [("propertyName", .string "kind")]
    let schema : Schema := .object [("oneOf", members), ("discriminator", tag),
      ("properties", .object [("kind", named "string")])]
    let other : Schema := .object [("type", .string "array"), ("allOf", .array [named "number"]),
      ("discriminator", tag), ("oneOf", members)]
    let builder : Builder := ⟨⟨"", ""⟩, []⟩
    let before : Context := { used := ["Dayjs"], path := [["components", "schemas", "Pet"]] }
    let (tree, after) := (builder.root (some "Pet") (some schema)).run before
    let (same, otherwise) := (builder.root (some "Pet") (some other)).run before
    tree = same ∧ after.used = ["Dayjs", "Big"] ∧ otherwise.used = ["Dayjs", "Big"] ∧
      after.findings = [⟨["components", "schemas", "Pet"], .oneOf⟩] ∧ otherwise.findings = [] := by
  intro named members tag schema other builder before
  have agree : (Form.combination .oneOf).Agree schema other := by
    refine ⟨by decide, by decide, fun keyword mem => ?_, trivial⟩
    rcases List.mem_cons.mp mem with rfl | isTag
    · rfl
    · rw [List.mem_singleton.mp isTag]
      rfl
  obtain ⟨trees, used, -, below, found, found'⟩ := builder.strongest_form_decides (some "Pet")
    ⟨by decide, by decide⟩ ⟨by decide, by decide⟩ ⟨by decide, by decide⟩ agree before
  have uses : ((builder.root (some "Pet") (some schema)).run before).2.used = ["Dayjs", "Big"] := by
    decide +kernel
  have mention : ((builder.root (some "Pet") (some schema)).run before).2.findings =
      [⟨["components", "schemas", "Pet"], .oneOf⟩] := by
    decide +kernel
  have mixed : schema.mixesProperties := by decide
  have plain : ¬ other.mixesProperties := by decide
  have nothing : below = [] := by
    have both := found.symm.trans mention
    dsimp only at both
    rw [if_pos mixed] at both
    exact (List.cons.inj both).2
  refine ⟨trees, uses, used ▸ uses, mention, found'.trans ?_⟩
  dsimp only
  rw [if_neg plain, nothing]
  rfl

end Builder

end SchemaTypes
