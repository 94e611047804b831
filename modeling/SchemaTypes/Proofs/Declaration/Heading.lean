import SchemaTypes.Generation.Output
import SchemaTypes.Proofs.Text.Comment

/-! # What a declaration starts with

Behind its comment and the word `export`, if it has them, a declaration starts with a keyword and
the name that it declares. The keyword tells its form, and what follows says what the name stands
for.
-/

namespace SchemaTypes

open Text

inductive DeclarationForm where
  | expression
  | interface
  | enumeration
deriving DecidableEq

namespace DeclarationForm

def heading (name : String) : DeclarationForm → String
  | .expression => "type " ++ name ++ " = "
  | .interface => "interface " ++ name ++ " \x7b\n"
  | .enumeration => "enum " ++ name ++ " \x7b\n"

def content (form : DeclarationForm) (tree : TypeTree) : String :=
  match form, tree.kind with
  | .interface, .interface properties required index =>
    TypeTree.memberLines 1 required properties ++ TypeTree.indexLine 1 index ++ "\x7d"
  | .enumeration, .enumeration values _ =>
    String.join ((Enumeration.members [] values).map Enumeration.memberLine) ++ "\x7d"
  | _, _ => tree.inline ++ ";"

def uncommented (cs : List Char) : List Char :=
  if startsComment cs then (cs.dropWhile (· != '\n')).drop 1 else cs

def unexported (cs : List Char) : List Char := (after? "export ".toList cs).getD cs

/-- The form in which a text declares a name, and what follows the heading. -/
def read? (name text : String) : Option (DeclarationForm × List Char) :=
  let cs := unexported (uncommented text.toList)
  [expression, interface, enumeration].findSome? fun form =>
    (after? (form.heading name).toList cs).map fun rest => (form, rest)

theorem uncommented_docComment (description : Option String) {rest : List Char}
    (plain : startsComment rest = false) :
    uncommented ((docComment "" description).toList ++ rest) = rest := by
  rcases docComment_cases (nofun : ∀ c ∈ "".toList, c = ' ') description with
    none | ⟨line, isComment, same⟩
  · rw [none, uncommented, String.toList_empty, List.nil_append, if_neg (by simp [plain])]
  · have starts : startsComment (line ++ '\n' :: rest) := by
      have nonempty : (line.dropWhile (· == ' ')).isEmpty = false := by
        cases found : line.dropWhile (· == ' ') with
        | nil => exact absurd isComment.starts (by rw [startsComment, found]; decide)
        | cons c cs => rfl
      rw [startsComment, List.dropWhile_append, nonempty, if_neg (by decide),
        List.isPrefixOf_iff_prefix]
      exact (List.isPrefixOf_iff_prefix.mp isComment.starts).trans (List.prefix_append _ _)
    have front : (line ++ '\n' :: rest).dropWhile (· != '\n') = '\n' :: rest := by
      have inner : ∀ c ∈ line, (c != '\n') = true := by
        intro c mem
        rw [bne_iff_ne]
        rintro rfl
        exact isComment.whole mem
      rw [List.dropWhile_append_of_pos inner]
      rfl
    rw [same, List.append_assoc, List.singleton_append, uncommented, if_pos starts, front]
    rfl

theorem startsComment_heading (exported : Bool) (form : DeclarationForm) (name : String)
    (rest : List Char) :
    startsComment ((if exported then "export " else "").toList ++
      ((form.heading name).toList ++ rest)) = false := by
  cases exported <;> cases form <;> simp [heading, startsComment, commentStart, List.isPrefixOf]

theorem unexported_heading (exported : Bool) (form : DeclarationForm) (name : String)
    (rest : List Char) :
    unexported ((if exported then "export " else "").toList ++
      ((form.heading name).toList ++ rest)) = (form.heading name).toList ++ rest := by
  rw [unexported]
  cases exported with
  | true => rw [if_pos rfl, after?_append, Option.getD_some]
  | false =>
    have noExport : after? "export ".toList ((form.heading name).toList ++ rest) = none := by
      cases form <;> simp [heading, after?, List.isPrefixOf?]
    rw [if_neg (by decide), String.toList_empty, List.nil_append, noExport, Option.getD_none]

theorem after?_heading (form other : DeclarationForm) (name : String) (rest : List Char) :
    after? (other.heading name).toList ((form.heading name).toList ++ rest) =
      if other = form then some rest else none := by
  split
  · next same => rw [same, after?_append]
  · next different =>
    cases form <;> cases other <;>
      first
      | exact absurd rfl different
      | simp [heading, after?, List.isPrefixOf?]

/-- A declaration is read by its heading, whatever stands in front of that and behind it. -/
theorem read?_heading (name : String) (form : DeclarationForm) (description : Option String)
    (exported : Bool) (rest : String) :
    read? name (docComment "" description ++ (if exported then "export " else "") ++
      (form.heading name ++ rest)) = some (form, rest.toList) := by
  rw [read?, String.toList_append, String.toList_append, String.toList_append, List.append_assoc,
    uncommented_docComment _ (startsComment_heading exported form name rest.toList),
    unexported_heading]
  simp only [after?_heading]
  cases form <;> rfl

end DeclarationForm

/-- The form in which a type is declared: its own if it has one that the options ask for, unless
`null` belongs to it. -/
def DeclarationOptions.form (options : DeclarationOptions) (tree : TypeTree) : DeclarationForm :=
  match tree.kind with
  | .interface _ _ _ =>
    if options.style = .interface ∧ !tree.nullable then .interface else .expression
  | .enumeration _ _ =>
    if !options.enumsAsUnions ∧ !tree.nullable then .enumeration else .expression
  | _ => .expression

/-- A named type is declared by a heading and what it has in its form. -/
theorem DeclarationOptions.declaration?_eq (options : DeclarationOptions) {tree : TypeTree}
    {name : String} (named : tree.name = some name) :
    options.declaration? tree =
      some (docComment "" tree.description ++ (if options.exported then "export " else "") ++
        ((options.form tree).heading name ++ (options.form tree).content tree)) := by
  have body : options.body? tree =
      some ((options.form tree).heading name ++ (options.form tree).content tree) := by
    have asExpression : tree.aliasDeclaration? =
        some (DeclarationForm.expression.heading name ++ (tree.inline ++ ";")) := by
      rw [TypeTree.aliasDeclaration?, named, DeclarationForm.heading]
      simp only [Option.map_some, String.append_assoc]
    rcases tree with ⟨attributes, kind⟩
    have named' : attributes.name = some name := named
    cases kind with
    | interface properties required index =>
      simp only [body?, form, TypeTree.kind]
      split
      · rw [TypeTree.interfaceDeclaration?, named']
        simp only [Option.map_some, DeclarationForm.heading, DeclarationForm.content, TypeTree.kind,
          String.append_assoc]
      · exact asExpression
    | enumeration values ofStrings =>
      simp only [body?, form, TypeTree.kind]
      split
      · rw [TypeTree.enumDeclaration?, named']
        simp only [Option.map_some, DeclarationForm.heading, DeclarationForm.content, TypeTree.kind,
          Enumeration.declaration, String.append_assoc]
      · exact asExpression
    | _ => exact asExpression
  rw [declaration?, body, Option.map_some]

end SchemaTypes
