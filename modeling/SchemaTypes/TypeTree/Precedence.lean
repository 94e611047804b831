import SchemaTypes.TypeTree.Basic

/-! # Binding strength

How strongly the outermost operator of a written type binds. `[]` binds tighter than `&`, and `&`
tighter than `|`; a function type reaches to the end of what follows it and so binds as a union.
-/

namespace SchemaTypes

/-- What holds a written type together at its top. -/
inductive Binding where
  | union
  | intersection
  /-- Nothing that could be torn apart. -/
  | atom
deriving DecidableEq

namespace Binding

def isOpening (c : Char) : Bool := c == '(' || c == '<' || c == '[' || c == '{'

def isClosing (c : Char) : Bool := c == ')' || c == '>' || c == ']' || c == '}'

/-- The binding of a type that is given as text, from a place inside `depth` brackets on; `found`
is the binding of what stands before. Of the operators only those outside brackets count, and an
arrow is no bracket. The depth has no bound here; counted in 32 bits it would be the same for less
than `2 ^ 31` brackets in a row that all open or all close, and overflow behind that. -/
def ofChars (depth : Int) (found : Binding) : List Char → Binding
  | [] => found
  | '=' :: '>' :: rest => if depth = 0 then union else ofChars depth found rest
  | c :: rest =>
    if isOpening c then ofChars (depth + 1) found rest
    else if isClosing c then ofChars (depth - 1) found rest
    else if c = '|' ∧ depth = 0 then union
    else if c = '&' ∧ depth = 0 then ofChars depth intersection rest
    else ofChars depth found rest

def ofText (text : String) : Binding := ofChars 0 atom text.toList

end Binding

/-- The binding of a written type. A single member binds as it does alone, and `null` after a type
makes it a union. -/
def TypeTree.binding : TypeTree → Binding
  | .node attributes kind =>
    if attributes.nullable then .union else
      match kind with
      | .union [] _ => .atom
      | .union [only] _ => only.binding
      | .union _ _ => .union
      | .intersection [] => .atom
      | .intersection [only] => only.binding
      | .intersection _ => .intersection
      | .enumeration (_ :: _ :: _) _ => .union
      | .custom text => .ofText text
      | _ => .atom

end SchemaTypes
