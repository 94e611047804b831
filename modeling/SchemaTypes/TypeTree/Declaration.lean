import SchemaTypes.TypeTree.Inline
import SchemaTypes.TypeTree.Enumeration

/-! # Declarations

The three forms in which a named type can be declared. Every named type has the form of an alias;
objects and enumerations have a form of their own beside it.
-/

namespace SchemaTypes.TypeTree

def interfaceDeclaration? : TypeTree → Option String
  | .node attributes (.interface properties required index) =>
    attributes.name.map fun name =>
      "interface " ++ name ++ " \x7b\n" ++ memberLines 1 required properties ++
        indexLine 1 index ++ "\x7d"
  | _ => none

def enumDeclaration? : TypeTree → Option String
  | .node attributes (.enumeration values _) =>
    attributes.name.map fun name => Enumeration.declaration name values
  | _ => none

def aliasDeclaration? (tree : TypeTree) : Option String :=
  tree.name.map fun name => "type " ++ name ++ " = " ++ tree.inline ++ ";"

/-- A named object or enumeration in its own form of declaration, any other type as an
expression. -/
def text (tree : TypeTree) : String :=
  ((tree.interfaceDeclaration?).or tree.enumDeclaration?).getD tree.inline

end SchemaTypes.TypeTree
