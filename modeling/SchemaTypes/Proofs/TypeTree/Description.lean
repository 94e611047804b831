import SchemaTypes.TypeTree.Declaration
import SchemaTypes.Proofs.Text.Comment
import SchemaTypes.Proofs.TypeTree.Texts

/-! # Types without their descriptions

A description shows in the text of a type only as the comment of a property or of a declaration, and
such a comment is a line of its own: it stands behind a line feed and ends in one.
-/

namespace SchemaTypes

open SchemaTypes.Json Text

namespace TypeTree

mutual

def undescribed : TypeTree → TypeTree
  | .node attributes kind => .node { attributes with description := none } (kindUndescribed kind)

def kindUndescribed : Kind TypeTree → Kind TypeTree
  | .primitive primitive => .primitive primitive
  | .literal value => .literal value
  | .custom text => .custom text
  | .reference name => .reference name
  | .array item => .array (undescribed item)
  | .enumeration values ofStrings => .enumeration values ofStrings
  | .interface properties required index =>
    .interface (propertiesUndescribed properties) required (indexUndescribed index)
  | .union members discriminator => .union (eachUndescribed members) discriminator
  | .intersection members => .intersection (eachUndescribed members)

def eachUndescribed : List TypeTree → List TypeTree
  | [] => []
  | tree :: trees => undescribed tree :: eachUndescribed trees

def propertiesUndescribed : List (String × TypeTree) → List (String × TypeTree)
  | [] => []
  | (name, tree) :: rest => (name, undescribed tree) :: propertiesUndescribed rest

def indexUndescribed : Option TypeTree → Option TypeTree
  | none => none
  | some tree => some (undescribed tree)

end

theorem eachUndescribed_eq (trees : List TypeTree) :
    eachUndescribed trees = trees.map undescribed := by
  induction trees with
  | nil => rfl
  | cons tree trees ih => rw [eachUndescribed, ih, List.map_cons]

theorem propertiesUndescribed_eq (properties : List (String × TypeTree)) :
    propertiesUndescribed properties =
      properties.map fun entry => (entry.1, entry.2.undescribed) := by
  induction properties with
  | nil => rfl
  | cons entry rest ih => rw [propertiesUndescribed, ih, List.map_cons]

theorem kindUndescribed_eq (kind : Kind TypeTree) :
    kindUndescribed kind = kind.map undescribed := by
  cases kind with
  | interface properties required index =>
    rw [kindUndescribed, propertiesUndescribed_eq]
    cases index <;> rfl
  | union members discriminator => rw [kindUndescribed, eachUndescribed_eq, Kind.map]
  | intersection members => rw [kindUndescribed, eachUndescribed_eq, Kind.map]
  | _ => rfl

theorem undescribed_node (attributes : Attributes) (kind : Kind TypeTree) :
    undescribed (.node attributes kind) =
      .node { attributes with description := none } (kind.map undescribed) := by
  rw [undescribed, kindUndescribed_eq]

@[simp] theorem nullable_undescribed (tree : TypeTree) :
    tree.undescribed.nullable = tree.nullable := by
  cases tree
  rfl

@[simp] theorem name_undescribed (tree : TypeTree) : tree.undescribed.name = tree.name := by
  cases tree
  rfl

@[simp] theorem description_undescribed (tree : TypeTree) :
    tree.undescribed.description = none := by
  cases tree
  rfl

/-! ## Words do not count -/

theorem customs_undescribed (tree : TypeTree) : tree.undescribed.customs = tree.customs := by
  induction tree using inductionOnParts with
  | node attributes kind parts =>
    rw [undescribed_node]
    cases kind with
    | custom text => rfl
    | _ =>
      rw [customs_node (by simp [Kind.map]), customs_node (by simp), Kind.parts_map,
        List.flatMap_map]
      exact List.flatMap_congr parts

theorem listsNull_undescribed (tree : TypeTree) : tree.undescribed.listsNull = tree.listsNull := by
  induction tree using inductionOnParts with
  | node attributes kind parts =>
    rw [undescribed_node, listsNull, listsNull]
    cases kind with
    | union members discriminator =>
      rw [Kind.map, kindListsNull, kindListsNull, anyListsNull_eq, anyListsNull_eq, List.any_map,
        Bool.eq_iff_iff, List.any_eq_true, List.any_eq_true]
      refine exists_congr fun part => and_congr_right fun mem => ?_
      rw [Function.comp_apply, nullable_undescribed, parts part mem]
    | _ => rfl

theorem kindListsNull_undescribed (kind : Kind TypeTree) :
    kindListsNull (kind.map undescribed) = kindListsNull kind := by
  have same := listsNull_undescribed (plain kind)
  rw [plain, undescribed_node] at same
  exact same

theorem binding_undescribed (tree : TypeTree) : tree.undescribed.binding = tree.binding := by
  induction tree using inductionOnParts with
  | node attributes kind parts =>
    rw [undescribed_node]
    cases kind with
    | union members discriminator =>
      rcases members with _ | ⟨only, _ | ⟨second, rest⟩⟩
      · rfl
      · simp only [Kind.map, List.map_cons, List.map_nil, binding, parts only List.mem_cons_self]
      · rfl
    | intersection members =>
      rcases members with _ | ⟨only, _ | ⟨second, rest⟩⟩
      · rfl
      · simp only [Kind.map, List.map_cons, List.map_nil, binding, parts only List.mem_cons_self]
      · rfl
    | enumeration values ofStrings => rcases values with _ | ⟨only, _ | ⟨second, rest⟩⟩ <;> rfl
    | _ => rfl

/-! ## Written types -/

/-- The operations of texts in which no property has a comment. -/
abbrev silent : Printer (Nat → String) (Nat → String) := .texts fun _ => none

theorem rows_undescribed (required : List String) (properties : List (String × TypeTree))
    (index : Option TypeTree) :
    Printer.printed.rows (fun tree depth => tree.inlineAt depth) required (index.map undescribed)
        (properties.map fun entry => (entry.1, entry.2.undescribed)) =
      silent.rows (fun tree depth => tree.undescribed.inlineAt depth) required index
        properties := by
  induction properties with
  | nil => cases index <;> rfl
  | cons entry rest ih =>
    rw [List.map_cons, Printer.rows, ih, description_undescribed]
    rfl

theorem kind_undescribed (kind : Kind TypeTree) :
    Printer.printed.kind (fun tree depth => tree.inlineAt depth) (kind.map undescribed) =
      silent.kind (fun tree depth => tree.undescribed.inlineAt depth) kind := by
  cases kind with
  | array item =>
    rw [Kind.map, Printer.kind, Printer.kind, binding_undescribed]
    rfl
  | interface properties required index =>
    rw [Kind.map, Printer.kind, Printer.kind, List.isEmpty_map, Option.isNone_map,
      rows_undescribed]
    rfl
  | union members discriminator =>
    rw [Kind.map, Printer.kind, List.map_map]
    rfl
  | intersection members =>
    rw [Kind.map, Printer.kind, Printer.kind, List.map_map]
    refine congrArg _ (List.map_congr_left fun part _ => ?_)
    rw [Function.comp_apply, binding_undescribed]
  | _ => rfl

theorem writes_undescribed : silent.Writes fun tree depth => tree.undescribed.inlineAt depth := by
  intro attributes kind
  dsimp only
  rw [undescribed_node]
  have written := Printer.writes_printed { attributes with description := none }
    (kind.map undescribed)
  rw [kind_undescribed, kindListsNull_undescribed] at written
  exact written

/-- Comments stand between the rows of objects, behind a line feed. -/
theorem annotatedTexts : Printer.TextsRelated (fun _ => none) 0 (fun _ => True) Annotated
    fun plain full => Annotated ("\n" ++ plain) ("\n" ++ full) where
  silent := rfl
  line _ := .refl _
  name _ := .refl _
  append := Annotated.append
  noRows := .refl _
  row depth description {_ _ _ _} type further := by
    have noComment : docComment (indentation depth) none = "" := rfl
    have lineEnd : ";\n" = ";" ++ "\n" := rfl
    have line := (((Annotated.refl (indentation depth)).append type).append (.refl ";")).append
      further
    have whole := line.docComment (spaces_indentation depth) description (by simp)
    rw [noComment, lineEnd]
    simpa only [String.append_assoc, String.empty_append, Nat.add_zero] using whole
  object depth {_ _} rows := by
    have opening : Annotated "\x7b" "\x7b" := .refl _
    have whole := (opening.append rows).append (.refl (indentation depth ++ "\x7d"))
    have feed : "\x7b\n" = "\x7b" ++ "\n" := rfl
    rw [feed]
    simpa only [String.append_assoc, Nat.add_zero] using whole

theorem hasNames_true (tree : TypeTree) : tree.HasNames fun _ => True :=
  fun _ _ _ _ => trivial

/-- A written type differs from the same type without descriptions by comments. -/
theorem annotated_inlineAt (depth : Nat) (tree : TypeTree) :
    Annotated (tree.undescribed.inlineAt depth) (tree.inlineAt depth) :=
  annotatedTexts.inlineAt writes_undescribed tree.hasNames_true depth

/-- Behind a line feed, so do the members of an object. -/
theorem annotated_members (depth : Nat) (required : List String)
    (properties : List (String × TypeTree)) (index : Option TypeTree) :
    Annotated
      ("\n" ++ (memberLines depth required
        (properties.map fun entry => (entry.1, entry.2.undescribed)) ++
          indexLine depth (index.map undescribed)))
      ("\n" ++ (memberLines depth required properties ++ indexLine depth index)) := by
  rw [← Printer.rows_printed, rows_undescribed]
  exact annotatedTexts.members writes_undescribed required (fun part _ => part.hasNames_true) depth

/-! ## Declarations -/

theorem rel_map {α β : Type} {related : β → β → Prop} {f g : α → β} (option : Option α)
    (each : ∀ a, related (f a) (g a)) : Option.Rel related (option.map f) (option.map g) := by
  cases option with
  | none => exact .none
  | some a => exact .some (each a)

theorem annotated_aliasDeclaration? (tree : TypeTree) :
    Option.Rel (fun plain full => plain ≠ "" ∧ Annotated plain full)
      tree.undescribed.aliasDeclaration? tree.aliasDeclaration? := by
  rw [aliasDeclaration?, aliasDeclaration?, name_undescribed]
  refine rel_map tree.name fun name => ⟨by simp, ?_⟩
  exact ((Annotated.refl _).append (annotated_inlineAt 0 tree)).append (.refl ";")

theorem annotated_interfaceDeclaration? (tree : TypeTree) :
    Option.Rel (fun plain full => plain ≠ "" ∧ Annotated plain full)
      tree.undescribed.interfaceDeclaration? tree.interfaceDeclaration? := by
  rcases tree with ⟨attributes, kind⟩
  rw [undescribed_node]
  cases kind with
  | interface properties required index =>
    refine rel_map attributes.name fun name => ⟨by simp, ?_⟩
    have members := ((Annotated.refl ("interface " ++ name ++ " \x7b")).append
      (annotated_members 1 required properties index)).append (.refl "\x7d")
    have brace : " \x7b\n" = " \x7b" ++ "\n" := rfl
    rw [brace]
    simpa only [String.append_assoc] using members
  | _ => exact .none

theorem annotated_enumDeclaration? (tree : TypeTree) :
    Option.Rel (fun plain full => plain ≠ "" ∧ Annotated plain full)
      tree.undescribed.enumDeclaration? tree.enumDeclaration? := by
  rcases tree with ⟨attributes, kind⟩
  rw [undescribed_node]
  cases kind with
  | enumeration values ofStrings =>
    refine rel_map attributes.name fun name => ⟨?_, .refl _⟩
    simp [Enumeration.declaration]
  | _ => exact .none

end TypeTree

end SchemaTypes
