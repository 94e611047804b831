import SchemaTypes.Proofs.Declaration.Lines
import SchemaTypes.Proofs.TypeTree.Alternatives

/-! # What a declaration says of its name

The options decide on the form of a declaration and not on what it says. Objects have the same lines
for their members in either form, and `null` belongs to them or not in both. Enumerations have the
same literals in either form but for `null`: where it is a value and the type does not admit it
otherwise, the declaration of an `enum` leaves it out.
-/

namespace SchemaTypes

open SchemaTypes.Json Text TypeTree

/-! ## Reading declarations -/

abbrev Declared := DeclarationForm × List Char

/-- Whether a text has `pattern` at its end; if so, what stands in front of it. -/
def Text.before? (pattern cs : List Char) : Option (List Char) := pattern.isSuffixOf? cs

/-- What a declaration says of an object: the lines of its members, and whether `null` belongs to
it. -/
structure ObjectContent where
  members : List Char
  admitsNull : Bool

def ObjectContent.members? (cs : List Char) : Option (List Char) :=
  (before? ['}'] cs).bind fun opened =>
    (after? ['{', '\n'] opened).or (after? ['{'] opened)

def ObjectContent.read? : Declared → Option ObjectContent
  | (.interface, cs) => (before? ['}'] cs).map fun members => ⟨members, false⟩
  | (.expression, cs) =>
    (before? [';'] cs).bind fun type =>
      match before? " | null".toList type with
      | some object => (members? object).map fun members => ⟨members, true⟩
      | none => (members? type).map fun members => ⟨members, false⟩
  | (.enumeration, _) => none

/-- The literal in the line of a member, behind its key and in front of the comma. -/
def memberLiteral (line : List Char) : String :=
  String.ofList (((line.drop 2).dropWhile (· != ' ')).drop 3).dropLast

/-- The literals that are said to be the values of an enumeration. -/
def declaredLiterals : Declared → List String
  | (.enumeration, cs) => (lines cs).dropLast.map memberLiteral
  | (.expression, cs) => (alternatives (String.ofList cs.dropLast)).filter (· != "never")
  | (.interface, _) => []

theorem Text.before?_append (front back : List Char) :
    before? back (front ++ back) = some front := by
  rw [before?, List.isSuffixOf?_eq_some_iff_append_eq]

theorem Text.before?_of_getLast?_ne {pattern cs : List Char} (nonempty : pattern ≠ [])
    (other : cs.getLast? ≠ pattern.getLast?) : before? pattern cs = none := by
  rw [Option.eq_none_iff_forall_ne_some]
  intro front found
  rw [before?, List.isSuffixOf?_eq_some_iff_append_eq] at found
  exact other (by rw [← found, List.getLast?_append_of_ne_nil _ nonempty])

/-! ## Objects -/

def declaredMembers (properties : List (String × TypeTree)) (required : List String)
    (index : Option TypeTree) : String :=
  memberLines 1 required properties ++ indexLine 1 index

theorem members?_kindAt (properties : List (String × TypeTree)) (required : List String)
    (index : Option TypeTree) :
    ObjectContent.members? (kindAt 0 (.interface properties required index)).toList =
      some (declaredMembers properties required index).toList := by
  rw [kindAt]
  split
  · next empty =>
    rw [Bool.and_eq_true, List.isEmpty_iff, Option.isNone_iff_eq_none] at empty
    rw [empty.1, empty.2]
    rfl
  · have shape : ("\x7b\n" ++ memberLines (0 + 1) required properties ++ indexLine (0 + 1) index ++
          indentation 0 ++ "\x7d").toList =
        ('{' :: '\n' :: (declaredMembers properties required index).toList) ++ ['}'] := by
      simp [declaredMembers, indentation]
    rw [shape, ObjectContent.members?, before?_append, Option.bind_some]
    have opened : after? ['{', '\n']
        ('{' :: '\n' :: (declaredMembers properties required index).toList) =
          some (declaredMembers properties required index).toList :=
      after?_append ['{', '\n'] _
    rw [opened]
    rfl

/-- What an object expression says. -/
theorem read?_objectExpression (attributes : Attributes) (properties : List (String × TypeTree))
    (required : List String) (index : Option TypeTree) :
    ObjectContent.read? (.expression,
        (TypeTree.inline (.node attributes (.interface properties required index)) ++ ";").toList) =
      some ⟨(declaredMembers properties required index).toList, attributes.nullable⟩ := by
  have members := members?_kindAt properties required index
  have noList : kindListsNull (.interface properties required index) = false := by
    simp [kindListsNull]
  rw [TypeTree.inline, inlineAt, nullSuffix, noList, Bool.not_false, Bool.and_true,
    ObjectContent.read?, String.toList_append, show ";".toList = [';'] from rfl, before?_append,
    Option.bind_some,
    String.toList_append]
  cases attributes.nullable with
  | true =>
    rw [if_pos rfl, before?_append]
    dsimp only
    rw [members, Option.map_some]
  | false =>
    have ends : (kindAt 0 (.interface properties required index)).toList.getLast? ≠
        " | null".toList.getLast? := by
      rw [ObjectContent.members?, Option.bind_eq_some_iff] at members
      obtain ⟨opened, found, -⟩ := members
      rw [before?, List.isSuffixOf?_eq_some_iff_append_eq] at found
      rw [← found, List.getLast?_concat]
      decide
    rw [if_neg (by decide), String.toList_empty, List.append_nil,
      before?_of_getLast?_ne (by decide) ends]
    dsimp only
    rw [members, Option.map_some]

/-- What the declaration of an object says, in either form. -/
theorem read?_object (options : DeclarationOptions) {tree : TypeTree}
    {properties : List (String × TypeTree)} {required : List String} {index : Option TypeTree}
    (isObject : tree.kind = .interface properties required index) :
    ObjectContent.read? (options.form tree, ((options.form tree).content tree).toList) =
      some ⟨(declaredMembers properties required index).toList, tree.nullable⟩ := by
  rcases tree with ⟨attributes, kind⟩
  cases isObject
  rw [DeclarationOptions.form]
  dsimp only [TypeTree.kind]
  split
  · next asInterface =>
    have notNullable : nullable (.node attributes (.interface properties required index)) = false :=
      by simpa using asInterface.2
    have content : DeclarationForm.interface.content
        (.node attributes (.interface properties required index)) =
          declaredMembers properties required index ++ "\x7d" := rfl
    rw [content, ObjectContent.read?, String.toList_append, show "\x7d".toList = ['}'] from rfl,
      before?_append, notNullable, Option.map_some]
  · exact read?_objectExpression attributes properties required index

/-! ## Enumerations -/

theorem memberLiteral_line {key : String} (isKey : Enumeration.IsKeyText key) (literal : String) :
    memberLiteral ("  " ++ key ++ " = " ++ literal ++ ",").toList = literal := by
  have noSpace : ∀ c ∈ key.toList, (c != ' ') = true := by
    intro c mem
    rw [bne_iff_ne]
    rintro rfl
    exact absurd (isKey ' ' mem) (by decide)
  have shape : ("  " ++ key ++ " = " ++ literal ++ ",").toList.drop 2 =
      key.toList ++ ' ' :: '=' :: ' ' :: (literal.toList ++ [',']) := by
    simp
  rw [memberLiteral, shape, List.dropWhile_append_of_pos noSpace]
  simp

/-- The literals of the lines of an `enum`. -/
theorem declaredLiterals_enumeration (attributes : Attributes) (values : List Value)
    (ofStrings : Bool) :
    declaredLiterals (.enumeration, (DeclarationForm.enumeration.content
        (.node attributes (.enumeration values ofStrings))).toList) =
      (values.filter fun value => !value.isNull).map Value.literal := by
  have content : (DeclarationForm.enumeration.content
      (.node attributes (.enumeration values ofStrings))).toList =
        (String.join ((Enumeration.members [] values).map Enumeration.memberLine)).toList ++
          ['\x7d'] := String.toList_append
  have lastLine : lines ['\x7d'] = [['\x7d']] := by decide
  rw [declaredLiterals, content,
    Enumeration.lines_members fun _ mem => Enumeration.whole_of_mem_members mem, lastLine,
    List.dropLast_concat, List.map_map, ← Enumeration.members_literals []]
  refine List.map_congr_left fun member mem => ?_
  exact memberLiteral_line (Enumeration.isKey_of_mem_members mem).made member.2

/-- The literals of a union, with `null` for a type that admits it. -/
theorem declaredLiterals_expression (attributes : Attributes) (values : List Value)
    (ofStrings : Bool) :
    declaredLiterals (.expression,
        (TypeTree.inline (.node attributes (.enumeration values ofStrings)) ++ ";").toList) =
      values.map Value.literal ++
        if attributes.nullable && !values.any Value.isNull then ["null"] else [] := by
  have names : HasNames IsIdentifier (.node attributes (.enumeration values ofStrings)) :=
    hasNames_node.mpr ⟨fun _ isLeaf => (by cases isLeaf), fun _ isPart => (by cases isPart)⟩
  have kept : (values.map Value.literal).filter (· != "never") = values.map Value.literal := by
    rw [List.filter_eq_self]
    intro literal mem
    obtain ⟨value, -, rfl⟩ := List.mem_map.mp mem
    exact bne_iff_ne.mpr (literal_ne_never value)
  have ofKind : (alternatives (kindAt 0 (.enumeration values ofStrings))).filter (· != "never") =
      values.map Value.literal := by
    rw [kindAt, alternatives_joined fun value _ => (whole_literal value).closed]
    split
    · next none =>
      rw [none]
      decide
    · rw [List.flatMap_congr fun value _ => alternatives_literal value, ← List.map_eq_flatMap, kept]
  have content : String.ofList
      (TypeTree.inline (.node attributes (.enumeration values ofStrings)) ++ ";").toList.dropLast =
        TypeTree.inline (.node attributes (.enumeration values ofStrings)) := by
    rw [String.toList_append, show ";".toList = [';'] from rfl, List.dropLast_concat,
      String.ofList_toList]
  rw [declaredLiterals, content, TypeTree.inline,
    alternatives_inlineAt (isClosed_kind 0 names).closed, List.filter_append, ofKind, kindListsNull]
  split <;> rfl

/-- What the declaration of an enumeration says: the literals of its values other than `null`, and
`null` if it is a value or admitted, but never in an `enum`. -/
structure SaysValues (values : List Value) (nullable : Bool) (declared : Declared) : Prop where
  literals {literal : String} (other : literal ≠ "null") :
    literal ∈ declaredLiterals declared ↔ ∃ value ∈ values, value.literal = literal
  null : "null" ∈ declaredLiterals declared ↔
    (nullable ∨ values.any Value.isNull) ∧ declared.1 = .expression

theorem null_mem_literals_iff {values : List Value} :
    "null" ∈ values.map Value.literal ↔ values.any Value.isNull := by
  rw [List.mem_map, List.any_eq_true]
  exact exists_congr fun value => and_congr_right fun _ => literal_eq_null_iff value

theorem saysValues_enumeration (attributes : Attributes) (values : List Value) (ofStrings : Bool) :
    SaysValues values attributes.nullable (.enumeration, (DeclarationForm.enumeration.content
      (.node attributes (.enumeration values ofStrings))).toList) where
  literals other := by
    rw [declaredLiterals_enumeration, List.mem_map]
    refine exists_congr fun value => and_congr_left fun same => ?_
    rw [List.mem_filter, and_iff_left_iff_imp]
    intro _
    rw [Bool.not_eq_true', ← Bool.not_eq_true, ← literal_eq_null_iff, same]
    exact other
  null := by
    rw [declaredLiterals_enumeration, null_mem_literals_iff]
    exact iff_of_false (by simp) fun both => nomatch both.2

theorem saysValues_expression (attributes : Attributes) (values : List Value) (ofStrings : Bool) :
    SaysValues values attributes.nullable (.expression,
      (TypeTree.inline (.node attributes (.enumeration values ofStrings)) ++ ";").toList) where
  literals other := by
    have noNull : ∀ nullable : Bool, _ ∉ if nullable then ["null"] else [] := fun nullable mem => by
      cases nullable with
      | true => exact other (List.mem_singleton.mp mem)
      | false => cases mem
    rw [declaredLiterals_expression, List.mem_append, or_iff_left (noNull _), List.mem_map]
  null := by
    rw [declaredLiterals_expression, List.mem_append, null_mem_literals_iff]
    cases attributes.nullable <;> cases values.any Value.isNull <;> simp

/-- What the declaration of an enumeration says, in either form. -/
theorem saysValues (options : DeclarationOptions) {tree : TypeTree} {values : List Value}
    {ofStrings : Bool} (isEnumeration : tree.kind = .enumeration values ofStrings) :
    SaysValues values tree.nullable
      (options.form tree, ((options.form tree).content tree).toList) := by
  rcases tree with ⟨attributes, kind⟩
  cases isEnumeration
  rw [DeclarationOptions.form]
  dsimp only [TypeTree.kind]
  split
  · exact saysValues_enumeration attributes values ofStrings
  · exact saysValues_expression attributes values ofStrings

/-! ## The same under all options -/

/-- Two declarations say the same of a type: the same members of an object, and `null` in both or in
neither; the same values of an enumeration, with `null` in both or in neither unless it is a value
of a type that does not admit it otherwise; and anything else by the same text. -/
def TypeTree.SameSaid (tree : TypeTree) (first second : Declared) : Prop :=
  match tree.kind with
  | .interface properties required index =>
    let object := ⟨(declaredMembers properties required index).toList, tree.nullable⟩
    ObjectContent.read? first = some object ∧ ObjectContent.read? second = some object
  | .enumeration values _ =>
    SaysValues values tree.nullable first ∧ SaysValues values tree.nullable second ∧
      (tree.nullable ∨ ¬ values.any Value.isNull →
        ("null" ∈ declaredLiterals first ↔ "null" ∈ declaredLiterals second))
  | _ => first = second

/-- A type that admits `null` is declared as an expression. -/
theorem DeclarationOptions.form_of_nullable (options : DeclarationOptions) {tree : TypeTree}
    (nullable : tree.nullable) : options.form tree = .expression := by
  rw [form.eq_def]
  split
  · exact if_neg fun both => by simp [nullable] at both
  · exact if_neg fun both => by simp [nullable] at both
  · rfl

/-- Options decide on the form of declarations and not on what they say of their names, but for
`null` as a value of an enumeration. -/
theorem DeclarationOptions.declarations_say_same (options other : DeclarationOptions)
    {tree : TypeTree} {name : String} (named : tree.name = some name) :
    ∃ text text' first second, options.declaration? tree = some text ∧
      other.declaration? tree = some text' ∧
      DeclarationForm.read? name text = some first ∧
      DeclarationForm.read? name text' = some second ∧ tree.SameSaid first second := by
  refine ⟨_, _, _, _, options.declaration?_eq named, other.declaration?_eq named,
    DeclarationForm.read?_heading .., DeclarationForm.read?_heading .., ?_⟩
  rw [TypeTree.SameSaid.eq_def]
  split
  · next isObject => exact ⟨read?_object options isObject, read?_object other isObject⟩
  · next isEnumeration =>
    have first := saysValues options isEnumeration
    have second := saysValues other isEnumeration
    refine ⟨first, second, fun told => ?_⟩
    rw [first.null, second.null]
    -- A type that admits `null` is a union under all options; any other has no `null` to leave out.
    by_cases nullable : tree.nullable
    · rw [options.form_of_nullable nullable, other.form_of_nullable nullable]
    · have noNull := told.resolve_left nullable
      exact iff_of_false (fun both => both.1.elim nullable noNull)
        fun both => both.1.elim nullable noNull
  · next noObject noEnumeration =>
    have form (options : DeclarationOptions) : options.form tree = .expression := by
      rw [DeclarationOptions.form.eq_def]
      split
      · next isObject => exact absurd isObject (noObject _ _ _)
      · next isEnumeration => exact absurd isEnumeration (noEnumeration _ _)
      · rfl
    rw [form options, form other]

/-- An object that admits `null`, and an enumeration with `null` that admits it. -/
theorem declarations_say_same_nullable :
    let object : TypeTree := .node { name := some "Pet", nullable := true }
      (.interface [("name", plain (.primitive .string))] [] (some (plain (.primitive .number))))
    let kind : TypeTree := .node { name := some "Kind", nullable := true }
      (.enumeration [.string "a | b", .null] false)
    let styled : DeclarationOptions := { style := .interface, enumsAsUnions := true }
    (object.name = some "Pet" ∧ kind.name = some "Kind") ∧
    (∃ text text' first second, ({} : DeclarationOptions).declaration? object = some text ∧
      styled.declaration? object = some text' ∧ DeclarationForm.read? "Pet" text = some first ∧
      DeclarationForm.read? "Pet" text' = some second ∧
      ObjectContent.read? first = ObjectContent.read? second ∧
      ObjectContent.read? first =
        some ⟨"  name?: string;\n  [key: string]: number;\n".toList, true⟩) ∧
    ∃ text text' first second, ({} : DeclarationOptions).declaration? kind = some text ∧
      styled.declaration? kind = some text' ∧ DeclarationForm.read? "Kind" text = some first ∧
      DeclarationForm.read? "Kind" text' = some second ∧
      ("null" ∈ declaredLiterals first ↔ "null" ∈ declaredLiterals second) := by
  intro object kind styled
  obtain ⟨text, text', first, second, isText, isText', read, read', said⟩ :=
    DeclarationOptions.declarations_say_same {} styled (show object.name = some "Pet" from rfl)
  obtain ⟨line, line', third, fourth, isLine, isLine', again, again', saidKind⟩ :=
    DeclarationOptions.declarations_say_same {} styled (show kind.name = some "Kind" from rfl)
  exact ⟨⟨rfl, rfl⟩,
    ⟨text, text', first, second, isText, isText', read, read', said.1.trans said.2.symm, said.1⟩,
    line, line', third, fourth, isLine, isLine', again, again', saidKind.2.2 (.inl rfl)⟩

/-- An `enum` leaves `null` out, a union does not. -/
theorem enum_leaves_null_out :
    let tree : TypeTree := .node { name := some "Kind" } (.enumeration [.string "a", .null] false)
    let unions : DeclarationOptions := { enumsAsUnions := true }
    ∃ text text' first second, ({} : DeclarationOptions).declaration? tree = some text ∧
      unions.declaration? tree = some text' ∧ DeclarationForm.read? "Kind" text = some first ∧
      DeclarationForm.read? "Kind" text' = some second ∧
      declaredLiterals first = ["\"a\""] ∧ declaredLiterals second = ["\"a\"", "null"] := by
  intro tree unions
  refine ⟨"export enum Kind \x7b\n  A = \"a\",\n\x7d", "export type Kind = \"a\" | null;",
    (.enumeration, "  A = \"a\",\n\x7d".toList), (.expression, "\"a\" | null;".toList), ?_⟩
  decide +kernel

end SchemaTypes
