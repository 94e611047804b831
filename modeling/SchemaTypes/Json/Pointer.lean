import SchemaTypes.Json.Value
import SchemaTypes.Text.Hexadecimal
import SchemaTypes.Text.Replace

/-! # JSON pointers

A pointer (RFC 6901) is a list of tokens, each the name of a field or the place of an item. In the
text of a pointer every token follows a slash, with `~1` for a slash and `~0` for a tilde inside it.
-/

namespace SchemaTypes.Json

/-- The written form of a token. Tildes come first, so that those of `~1` stay as they are. -/
def Pointer.escapeChars (token : List Char) : List Char :=
  Text.replaceChar '/' ['~', '1'] (Text.replaceChar '~' ['~', '0'] token)

def Pointer.escape (token : String) : String :=
  String.ofList (Pointer.escapeChars token.toList)

/-- The characters that a written token stands for; a tilde before any other character is itself.
Slashes come first, so that `~01` becomes `~1` and is not read once more. -/
def Pointer.unescapeChars (written : List Char) : List Char :=
  Text.replacePair '~' '0' ['~'] (Text.replacePair '~' '1' ['/'] written)

def Pointer.unescape (written : String) : String :=
  String.ofList (Pointer.unescapeChars written.toList)

/-- The way from the root of a document to one of its parts. -/
abbrev Pointer := List String

namespace Pointer

def fragment (pointer : Pointer) : String :=
  "#/" ++ "/".intercalate (pointer.map escape)

/-- The tokens of a pointer's text; none if it is neither empty nor starts with a slash. -/
def parse? (text : String) : Option Pointer :=
  match text.toList with
  | [] => some []
  | '/' :: rest => some ((rest.splitOn '/').map fun token => String.ofList (unescapeChars token))
  | _ => none

/-- The place in an array that a token names: digits, without a zero in front of others. -/
def index? (token : String) : Option Nat :=
  match token.toList with
  | [] => none
  | ['0'] => some 0
  | '0' :: _ => none
  | cs =>
    if cs.all Char.isDigit then some (Text.decimalValue cs) else none

end Pointer

namespace Value

def step? (value : Value) (token : String) : Option Value :=
  match value with
  | .object fields => Fields.get? token fields
  | .array items => (Pointer.index? token).bind (items[·]?)
  | _ => none

def at? (value : Value) : Pointer → Option Value
  | [] => some value
  | token :: rest => (value.step? token).bind (·.at? rest)

end Value

end SchemaTypes.Json
