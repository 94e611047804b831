import SchemaTypes.Text.Blank
import SchemaTypes.Text.Split

/-! # Doc comments

A description becomes a comment of one line: its lines are trimmed, blank ones dropped and the
others joined by a space, and a slash after an asterisk gets a backslash in front, so that nothing
in the description ends the comment.
-/

namespace SchemaTypes.Text

def guardCommentEnd : List Char → List Char
  | '*' :: '/' :: rest => '*' :: '\\' :: '/' :: guardCommentEnd rest
  | c :: rest => c :: guardCommentEnd rest
  | [] => []

/-- The lines of a description that are not blank, trimmed and joined by spaces. -/
def joinedLines (cs : List Char) : List Char :=
  [' '].intercalate (((lines cs).map trim).filter (· ≠ []))

/-- The one line of a description; none if it is blank. -/
def docLine? (description : String) : Option String :=
  match joinedLines description.toList with
  | [] => none
  | line => some (String.ofList (guardCommentEnd line))

/-- The comment of a description with the line feed that ends it; empty if there is nothing to
say. -/
def docComment (indent : String) (description : Option String) : String :=
  match description.bind docLine? with
  | some line => indent ++ "/** " ++ line ++ " */\n"
  | none => ""

end SchemaTypes.Text
