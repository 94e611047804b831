import SchemaTypes.Yaml.Cursor

/-! # Plain scalars

A scalar without quotes goes on over blanks and line breaks as long as it stays right of the
indentation. It ends in front of a comment, a colon that ends a word, the start or end of a
document and, inside brackets and braces, at a bracket, a brace or a comma.
-/

namespace SchemaTypes.Yaml

def isFlowMark (c : Char) : Bool := c == ',' || c == '[' || c == ']' || c == '{' || c == '}'

/-- The characters of one word of a plain scalar. Inside brackets a colon in front of a mark is an
error. -/
def plainWord (flow : Bool) : List Char → Option (List Char)
  | [] => some []
  | c :: rest =>
    if isBlank c || isBreak c then some []
    else if flow && c == ':' && rest.head?.any (fun d => isFlowMark d || d == '?') then none
    else if (c == ':' && endsWord rest) || (flow && isFlowMark c) then some []
    else (plainWord flow rest).map (c :: ·)

/-- Read a plain scalar on from the text read so far and the gap after it, in at most `fuel` words
with gaps of at most that length. Yields the text, whether a line has ended after it, and the place
after the gap. -/
def plainScalar (flow : Bool) (indent : Int) :
    Nat → List Char → Gap → Cursor → Option (List Char × Bool × Cursor)
  | 0, _, _, _ => none
  | fuel + 1, text, gap, cursor =>
    if cursor.atDocumentMark || cursor.sees '#' then some (text, gap.broken, cursor) else do
      let word ← plainWord flow cursor.rest
      let (text, gap) := if word.isEmpty then (text, gap) else (text ++ gap.folded ++ word, {})
      let cursor := cursor.skip word.length
      if cursor.rest.isEmpty || !endsWord cursor.rest then some (text, gap.broken, cursor) else
        let (gap, cursor) ← Gap.read indent fuel gap cursor
        if !flow && (cursor.column : Int) < indent then some (text, gap.broken, cursor)
        else plainScalar flow indent fuel text gap cursor

end SchemaTypes.Yaml
