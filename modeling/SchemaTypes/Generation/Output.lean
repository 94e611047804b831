import SchemaTypes.TypeTree.Declaration
import SchemaTypes.Settings.Basic

/-! # The generated file

Import statements, one a line; a blank line; then the declarations in the order of their schemas
with a blank line between two of them.
-/

namespace SchemaTypes

/-- The declaration of a named type without its comment: objects and enumerations in their own form
where the options ask for it and `null` does not belong to them, all else as an alias. -/
def DeclarationOptions.body? (options : DeclarationOptions) (tree : TypeTree) : Option String :=
  match tree.kind with
  | .interface _ _ _ =>
    if options.style = .interface ∧ !tree.nullable then tree.interfaceDeclaration?
    else tree.aliasDeclaration?
  | .enumeration _ _ =>
    if !options.enumsAsUnions ∧ !tree.nullable then tree.enumDeclaration?
    else tree.aliasDeclaration?
  | _ => tree.aliasDeclaration?

/-- The declaration of a named type under its comment. A type without a name has none. -/
def DeclarationOptions.declaration? (options : DeclarationOptions) (tree : TypeTree) :
    Option String :=
  (options.body? tree).map fun body =>
    Text.docComment "" tree.description ++ (if options.exported then "export " else "") ++ body

/-- A text that ends in a line feed. -/
def endingLine (text : String) : String :=
  if text.toList.getLast? = some '\n' then text else text ++ "\n"

def DeclarationOptions.file (options : DeclarationOptions) (trees : List TypeTree)
    (imports : List String) : String :=
  let header := String.join (imports.map fun statement => statement ++ "\n")
  let gap := if !imports.isEmpty && !trees.isEmpty then "\n" else ""
  endingLine (header ++ gap ++ "\n\n".intercalate (trees.filterMap options.declaration?))

end SchemaTypes
