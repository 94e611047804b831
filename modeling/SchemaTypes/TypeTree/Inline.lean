import SchemaTypes.TypeTree.Precedence
import SchemaTypes.TypeTree.Literal
import SchemaTypes.Text.Comment
import SchemaTypes.Naming

/-! # Type expressions

The text of a type where it is used. Members of objects stand on lines of their own, two spaces
deeper for every object around them; parentheses stand where an operand binds more weakly than the
operator next to it.
-/

namespace SchemaTypes.TypeTree

open SchemaTypes.Json

def indentation (depth : Nat) : String := String.ofList (List.replicate (2 * depth) ' ')

def parenthesized (needed : Bool) (text : String) : String :=
  if needed then "(" ++ text ++ ")" else text

/-- Alternatives or operands of which there may be none. -/
def joined (operator empty : String) (texts : List String) : String :=
  if texts.isEmpty then empty else operator.intercalate texts

mutual

/-- Whether `null` is already among the alternatives that are written. -/
def listsNull : TypeTree → Bool
  | .node _ kind => kindListsNull kind

def kindListsNull : Kind TypeTree → Bool
  | .primitive .null => true
  | .literal .null => true
  | .enumeration values _ => values.any Value.isNull
  | .union members _ => anyListsNull members
  | _ => false

def anyListsNull : List TypeTree → Bool
  | [] => false
  | tree :: trees => tree.nullable || listsNull tree || anyListsNull trees

end

/-- The alternative `null` behind a type that admits it and does not list it. -/
def nullSuffix (nullable : Bool) (kind : Kind TypeTree) : String :=
  if nullable && !kindListsNull kind then " | null" else ""

mutual

/-- The text of a type inside `depth` objects. -/
def inlineAt (depth : Nat) : TypeTree → String
  | .node attributes kind => kindAt depth kind ++ nullSuffix attributes.nullable kind

def kindAt (depth : Nat) : Kind TypeTree → String
  | .primitive primitive => primitive.text
  | .literal value => value.literal
  | .custom text => text
  | .reference name => name
  | .array item => parenthesized (item.binding != .atom) (inlineAt depth item) ++ "[]"
  | .enumeration values _ => joined " | " "never" (values.map Value.literal)
  | .interface properties required index =>
    if properties.isEmpty && index.isNone then "\x7b\x7d" else
      "\x7b\n" ++ memberLines (depth + 1) required properties ++ indexLine (depth + 1) index ++
        indentation depth ++ "\x7d"
  | .union members _ => joined " | " "never" (inlineEach depth members)
  | .intersection members => joined " & " "unknown" (operandEach depth members)

def inlineEach (depth : Nat) : List TypeTree → List String
  | [] => []
  | tree :: trees => inlineAt depth tree :: inlineEach depth trees

/-- The texts of the members of an intersection, in parentheses where they bind as a union. -/
def operandEach (depth : Nat) : List TypeTree → List String
  | [] => []
  | tree :: trees =>
    parenthesized (tree.binding == .union) (inlineAt depth tree) :: operandEach depth trees

/-- The lines of the properties of an object, each under its comment; a property that may be
missing has a question mark. -/
def memberLines (depth : Nat) (required : List String) : List (String × TypeTree) → String
  | [] => ""
  | (name, tree) :: rest =>
    Text.docComment (indentation depth) tree.description ++
      indentation depth ++ Naming.propertyKey name ++
      (if required.contains name then "" else "?") ++ ": " ++
      inlineAt depth tree ++ ";\n" ++ memberLines depth required rest

def indexLine (depth : Nat) : Option TypeTree → String
  | none => ""
  | some tree => indentation depth ++ "[key: string]: " ++ inlineAt depth tree ++ ";\n"

end

def inline (tree : TypeTree) : String := tree.inlineAt 0

end SchemaTypes.TypeTree
