/-! # Parts of texts

Cutting a text at its line feeds, behind a known beginning, or at the first of some character.
-/

namespace SchemaTypes.Text

/-- The lines of a text, without the line feeds that end them. -/
def lines (cs : List Char) : List (List Char) :=
  cs.splitOn '\n'

/-- Whether `cs` has `pattern` in front; if so, what follows it. -/
def after? (pattern cs : List Char) : Option (List Char) :=
  pattern.isPrefixOf? cs

/-- A text up to the first occurrence of a character and what follows it. -/
def splitFirst? (mark : Char) (s : String) : Option (String × String) :=
  match s.toList.span (· != mark) with
  | (_, []) => none
  | (front, _ :: back) => some (String.ofList front, String.ofList back)

end SchemaTypes.Text
