import SchemaTypes.Proofs.Expression.Literal
import SchemaTypes.Proofs.Expression.Object
import SchemaTypes.Proofs.Text.Split
import SchemaTypes.Proofs.TypeTree.Printer

/-! # Written types read back

The text of a type is read as the structure of the type: the binding that decides on parentheses is
one with which the text can be read, so that no operator tears an operand apart.
-/

namespace SchemaTypes

open SchemaTypes.Json Lexer TypeExpr

namespace TypeTree

mutual

/-- The expression that a type is meant to be written as. -/
def expression : TypeTree → TypeExpr
  | .node attributes kind =>
    if attributes.nullable then .union [kindExpression kind, .leaf "null"] else kindExpression kind

def kindExpression : Kind TypeTree → TypeExpr
  | .primitive primitive => .leaf primitive.text
  | .literal value => .leaf value.literal
  | .custom text => .leaf text
  | .reference name => .leaf name
  | .array item => .array (expression item)
  | .enumeration values _ => .union (values.map fun value => .leaf value.literal)
  | .interface properties required index =>
    .object (propertyExpressions required properties) (indexExpression index)
  | .union members _ => .union (memberExpressions members)
  | .intersection members => .intersection (memberExpressions members)

def memberExpressions : List TypeTree → List TypeExpr
  | [] => []
  | tree :: trees => expression tree :: memberExpressions trees

/-- A property may be missing if it is not required. -/
def propertyExpressions (required : List String) :
    List (String × TypeTree) → List (String × Bool × TypeExpr)
  | [] => []
  | (name, tree) :: rest =>
    (name, !required.contains name, expression tree) :: propertyExpressions required rest

def indexExpression : Option TypeTree → Option TypeExpr
  | none => none
  | some tree => some (expression tree)

end

@[simp] theorem memberExpressions_eq (trees : List TypeTree) :
    memberExpressions trees = trees.map expression := by
  induction trees with
  | nil => rfl
  | cons tree trees ih => rw [memberExpressions, ih, List.map_cons]

@[simp] theorem propertyExpressions_eq (required : List String)
    (properties : List (String × TypeTree)) :
    propertyExpressions required properties =
      properties.map fun entry => (entry.1, !required.contains entry.1, entry.2.expression) := by
  induction properties with
  | nil => rfl
  | cons entry rest ih => rw [propertyExpressions, ih, List.map_cons]

@[simp] theorem indexExpression_eq (index : Option TypeTree) :
    indexExpression index = index.map expression := by
  cases index <;> rfl

/-! ## The alternative null -/

theorem normal_nullable (attributes : Attributes) (kind : Kind TypeTree) :
    (expression (.node attributes kind)).normal =
      if attributes.nullable then
        Structure.union [(kindExpression kind).normal, [[.leaf "null"]]]
      else (kindExpression kind).normal := by
  rw [expression]
  split
  · simp [normal]
  · rfl

/-- Where `null` is listed, it is an alternative. -/
theorem any_null_of_listsNull (tree : TypeTree) (h : tree.nullable || tree.listsNull) :
    tree.expression.normal.any Structure.isNull := by
  induction tree using inductionOnParts with
  | node attributes kind parts =>
    rw [normal_nullable]
    by_cases nullable : attributes.nullable
    · rw [if_pos nullable, Structure.any_union (List.cons_ne_nil _ _)]
      simp [Structure.isNull]
    · have lists : kindListsNull kind := by
        simpa [TypeTree.nullable, TypeTree.attributes, nullable, listsNull] using h
      rw [if_neg nullable]
      cases kind with
      | primitive primitive =>
        cases primitive with
        | null => rfl
        | _ => cases lists
      | literal value =>
        cases value with
        | null => rfl
        | _ => cases lists
      | enumeration values ofStrings =>
        rcases List.any_eq_true.mp lists with ⟨value, listed, null⟩
        have nonempty : values ≠ [] := List.ne_nil_of_mem listed
        simp only [kindExpression, normal, normalEach_eq]
        rw [Structure.any_union (by simpa using nonempty)]
        refine List.any_eq_true.mpr ⟨[[.leaf value.literal]], ?_, ?_⟩
        · simp only [List.map_map]
          exact List.mem_map.mpr ⟨value, listed, rfl⟩
        · cases value with
          | null => rfl
          | _ => cases null
      | union members discriminator =>
        rw [kindListsNull, anyListsNull_eq] at lists
        rcases List.any_eq_true.mp lists with ⟨member, listed, null⟩
        have nonempty : members ≠ [] := List.ne_nil_of_mem listed
        simp only [kindExpression, normal, normalEach_eq, memberExpressions_eq, List.map_map]
        rw [Structure.any_union (by simpa using nonempty)]
        exact List.any_eq_true.mpr
          ⟨_, List.mem_map.mpr ⟨member, listed, rfl⟩, parts member listed null⟩
      | _ => cases lists

/-! ## Structures -/

/-- The operations that the structures of types are put together with. Neither what a property is
described as nor how an operand binds is a part of them. -/
def structures : Printer Structure (List (String × Bool × Structure) × Option Structure) where
  leaf text := [[.leaf text]]
  array _ item := [[.array item]]
  union := Structure.union
  intersection operands := Structure.intersection (operands.map (·.2))
  orNull type := Structure.union [type, [[.leaf "null"]]]
  emptyObject := [[.object [] none]]
  object rows := [[.object rows.1 rows.2]]
  property name required _ type more := ((name, !required, type) :: more.1, more.2)
  further type := ([], some type)
  noFurther := ([], none)

theorem rows_structures (required : List String) (properties : List (String × TypeTree))
    (index : Option TypeTree) :
    structures.rows (fun tree => tree.expression.normal) required index properties =
      (normalProperties (propertyExpressions required properties),
        normalIndex (indexExpression index)) := by
  induction properties with
  | nil => cases index <;> rfl
  | cons entry rest ih =>
    rcases entry with ⟨name, tree⟩
    rw [Printer.rows, ih]
    rfl

theorem kind_structures (kind : Kind TypeTree) :
    structures.kind (fun tree => tree.expression.normal) kind = (kindExpression kind).normal := by
  cases kind with
  | interface properties required index =>
    rw [Printer.kind]
    split
    · next empty =>
      rw [Bool.and_eq_true, List.isEmpty_iff, Option.isNone_iff_eq_none] at empty
      rw [empty.1, empty.2]
      rfl
    · rw [rows_structures]
      rfl
  | enumeration values ofStrings =>
    simp [Printer.kind, structures, kindExpression, normal, Function.comp_def]
  | union members discriminator =>
    simp [Printer.kind, structures, kindExpression, normal, Function.comp_def]
  | intersection members =>
    simp [Printer.kind, structures, kindExpression, normal, Function.comp_def]
  | _ => rfl

/-- A further `null` changes nothing where it is listed already. -/
theorem writes_structures : structures.Writes fun tree => tree.expression.normal := by
  intro attributes kind
  rw [kind_structures]
  refine (normal_nullable attributes kind).trans ?_
  by_cases nullable : attributes.nullable
  · rw [if_pos nullable, nullable, Bool.true_and]
    by_cases lists : kindListsNull kind
    · have null : (kindExpression kind).normal.any Structure.isNull := by
        have := any_null_of_listsNull (plain kind) (by rw [plain, listsNull, lists, Bool.or_true])
        rwa [plain, normal_nullable] at this
      rw [Structure.union_null (union_normal _) null, lists]
      rfl
    · rw [Bool.eq_false_iff.mpr lists]
      rfl
  · rw [if_neg nullable, Bool.eq_false_iff.mpr nullable]
    rfl

end TypeTree

def IsIdentifier (name : String) : Prop :=
  name ≠ "" ∧ name.toList.head?.all (fun c => !c.isDigit) ∧ name.toList.all isNameChar

instance (name : String) : Decidable (IsIdentifier name) :=
  inferInstanceAs (Decidable (name ≠ "" ∧ name.toList.head?.all (fun c => !c.isDigit) = true ∧
    name.toList.all isNameChar = true))

namespace Binding

/-- A character that means nothing to the binding of a text. -/
def isIdle (c : Char) : Bool :=
  !(c == '=' || c == '|' || c == '&' || isOpening c || isClosing c)

theorem ofChars_idle {depth : Int} {found : Binding} {cs : List Char} (idle : cs.all isIdle)
    (rest : List Char) : ofChars depth found (cs ++ rest) = ofChars depth found rest := by
  induction cs with
  | nil => rfl
  | cons c cs ih =>
    rw [List.all_cons, Bool.and_eq_true] at idle
    have none := idle.1
    simp only [isIdle, Bool.not_or, Bool.and_eq_true, Bool.not_eq_true',
      beq_eq_false_iff_ne] at none
    obtain ⟨⟨⟨⟨noEquals, noBar⟩, noAmpersand⟩, noOpening⟩, noClosing⟩ := none
    rw [List.cons_append, ofChars.eq_3 _ _ _ _ fun _ isEquals => absurd isEquals noEquals]
    simp [noBar, noAmpersand, noOpening, noClosing, ih idle.2]

theorem isIdle_of_not_mem {c : Char}
    (none : c ∉ ['=', '|', '&', '(', '<', '[', '{', ')', '>', ']', '}']) : isIdle c := by
  simp only [List.mem_cons, List.not_mem_nil, or_false, not_or] at none
  simp [isIdle, isOpening, isClosing, none]

theorem isIdle_of_isNameChar {c : Char} (name : isNameChar c) : isIdle c :=
  isIdle_of_not_mem (Text.not_mem_of_all_not (by decide) name)

end Binding

namespace TypeTree

/-- An identifier cannot be torn apart. -/
theorem ofChars_identifier (cs : List Char) (h : cs.all isNameChar) :
    Binding.ofChars 0 .atom cs = .atom := by
  have idle : cs.all Binding.isIdle := List.all_eq_true.mpr fun c mem =>
    Binding.isIdle_of_isNameChar (List.all_eq_true.mp h c mem)
  rw [← List.append_nil cs]
  exact Binding.ofChars_idle idle []

theorem written_identifier {name : String} (h : IsIdentifier name) :
    Written .atom name [[.leaf name]] := by
  refine written_word h.1 (List.all_eq_true.mpr fun c mem => ?_)
  rw [isWordChar, List.all_eq_true.mp h.2.2 c mem]
  rfl

/-! ## Reading back -/

theorem whole_indent (depth : Nat) : Whole (indentation depth).toList [] := by
  rw [indentation, String.toList_ofList]
  exact whole_spaces _

/-- Texts are put together so that they are read as what is meant, with the binding of the type. -/
theorem reads_texts :
    Printer.Related Printer.printed structures IsIdentifier
      (fun binding text s => ∀ depth, Written binding (text depth) s)
      (fun rows s => ∀ depth, WrittenRows (rows depth) s.1 s.2) where
  weaken written depth := (written depth).weaken
  primitive primitive := fun _ => by
    have word : primitive.text ≠ "" ∧ IsWordText primitive.text := by cases primitive <;> decide
    exact written_word word.1 word.2
  literal value := fun _ => written_literal value
  custom {text} isName := fun _ => by
    rw [Binding.ofText, ofChars_identifier text.toList isName.2.2]
    exact written_identifier isName
  reference isName := fun _ => written_identifier isName
  array written := fun depth => (written depth).atom.array
  noMember := fun _ => by
    have never : Written .atom "never" [[.leaf "never"]] := written_word (by decide) (by decide)
    exact never
  onlyMember {_ _ s} written := fun depth => by
    change Written _ _ (Structure.union [s])
    rw [(written depth).union_self]
    exact written depth
  members nonempty each := fun depth => by
    simp only [Printer.texts, List.map_map, joined_map nonempty]
    exact written_union nonempty fun item mem => each item mem depth
  noOperand := fun _ => by
    have unknown : Written .atom "unknown" [[.leaf "unknown"]] :=
      written_word (by decide) (by decide)
    exact unknown
  onlyOperand written := fun depth => (written depth).parenthesizedUnion
  operands nonempty each := fun depth => by
    simp only [Printer.texts, structures, List.map_map, joined_map nonempty]
    exact written_intersection nonempty fun item mem => (each item mem depth).operand
  orNull written := fun depth => by
    have null : Written .union "null" [[.leaf "null"]] :=
      (written_word (by decide) (by decide)).weaken
    have both := (written depth).union null
    rwa [String.append_assoc] at both
  emptyObject := fun _ => writtenObject_nil
  object rows := fun depth => (rows (depth + 1)).object (whole_indent depth)
  property name required description _ _ _ _ written more := fun depth => by
    have blank : Whole (Text.docComment (indentation depth) description ++
        indentation depth).toList [] := by
      rw [String.toList_append, indentation, String.toList_ofList]
      exact (whole_docComment _ _).append (whole_spaces _)
    exact WrittenRows.cons blank (written depth) (more depth)
  further written := fun depth => Written.index (whole_indent depth) (written depth)
  noFurther := fun _ => writtenRows_nil

/-- A written type reads back as what it is, if the names in it are identifiers. -/
theorem inline_reads_back (tree : TypeTree)
    (names : ∀ node ∈ tree.nodes, ∀ name, node.leafName? = some name → IsIdentifier name) :
    ∃ expression, TypeExpr.read? tree.inline = some expression ∧
      expression.normal = tree.expression.normal := by
  have written := reads_texts.tree Printer.writes_printed writes_structures names 0
  obtain ⟨tokens, lexes, reads⟩ := written.weaken
  rcases reads with ⟨alternatives, operands, last, means, reads⟩
  refine ⟨_, ?_, means⟩
  rw [TypeExpr.read?, inline, tokens?_of_lexes lexes, Option.bind_some]
  have := reads [] [] []
  rwa [List.append_nil] at this

/-- A property with a quoted key, a comment, and a type that admits `null`. -/
theorem inline_reads_back_property :
    let user : TypeTree :=
      .node { description := some "Ends */ here.", nullable := true } (.reference "User")
    let tree : TypeTree := plain (.interface [("first name", user)] [] none)
    ∃ expression, TypeExpr.read? tree.inline = some expression ∧
      expression.normal =
        [[.object [("first name", true, [[.leaf "User"], [.leaf "null"]])] none]] := by
  intro user tree
  have names : ∀ node ∈ tree.nodes, ∀ name, node.leafName? = some name → IsIdentifier name := by
    have all : tree.nodes = [tree, user] := rfl
    rw [all]
    intro node mem name isName
    rw [List.mem_cons, List.mem_singleton] at mem
    rcases mem with rfl | rfl
    · cases isName
    · cases isName
      exact ⟨by decide, by decide, by decide⟩
  exact inline_reads_back tree names

end TypeTree

end SchemaTypes
