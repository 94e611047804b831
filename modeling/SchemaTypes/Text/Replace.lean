/-! # Replacing parts of texts

Every occurrence of a character, or of two characters in a row, replaced by another text.
-/

namespace SchemaTypes.Text

def replaceChar (old : Char) (new cs : List Char) : List Char :=
  cs.flatMap fun c => if c = old then new else [c]

/-- Every occurrence of two characters in a row, found from the left, replaced by a text. -/
def replacePair (first second : Char) (new : List Char) : List Char → List Char
  | a :: b :: rest =>
    if a = first ∧ b = second then new ++ replacePair first second new rest
    else a :: replacePair first second new (b :: rest)
  | cs => cs

end SchemaTypes.Text
