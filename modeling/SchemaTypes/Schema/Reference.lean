import SchemaTypes.Json.Pointer
import SchemaTypes.Text.Split

/-! # References

What the text of a `$ref` names: the last segment, whatever stands in front of it, and the component
schema of the same document where it has the form for that.
-/

namespace SchemaTypes.Reference

open SchemaTypes.Json

def componentsRoot : String := "#/components/schemas/"

def lastSegment (cs : List Char) : List Char :=
  (cs.reverse.takeWhile (· != '/')).reverse

/-- The name at the end of a reference. A reference that ends in a slash is a name as a whole. -/
def name (reference : String) : String :=
  match lastSegment reference.toList with
  | [] => Pointer.unescape reference
  | segment => String.ofList (Pointer.unescapeChars segment)

def component? (reference : String) : Option String :=
  match Text.after? componentsRoot.toList reference.toList with
  | some (c :: cs) =>
    if (c :: cs).contains '/' then none else some (String.ofList (Pointer.unescapeChars (c :: cs)))
  | _ => none

def place (key : String) : Pointer := ["components", "schemas", key]

def toComponent (key : String) : String := componentsRoot ++ Pointer.escape key

end SchemaTypes.Reference
