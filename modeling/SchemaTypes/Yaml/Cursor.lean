/-! # Places in a text

YAML gives meaning to columns, so reading keeps account of lines and columns. Five characters end a
line; only a space counts as indentation, and a space or a tab as a blank.
-/

namespace SchemaTypes.Yaml

def isBreak (c : Char) : Bool :=
  c == '\n' || c == '\r' || c == '\u0085' || c == '\u2028' || c == '\u2029'

def isBlank (c : Char) : Bool := c == ' ' || c == '\t'

/-- Letters, digits and the two marks that names of anchors and handles are made of. -/
def isNameChar (c : Char) : Bool := c.isAlphanum || c == '_' || c == '-'

/-- Whether a word ends here: at a blank, a line break or the end of the text. -/
def endsWord : List Char → Bool
  | [] => true
  | c :: _ => isBlank c || isBreak c

def endsLine : List Char → Bool
  | [] => true
  | c :: _ => isBreak c

/-- A place in a text: what is still to be read, and how far it is from the start of the text and of
the line. -/
structure Cursor where
  rest : List Char
  line : Nat := 0
  column : Nat := 0
  index : Nat := 0

namespace Cursor

def sees (cursor : Cursor) (c : Char) : Bool := cursor.rest.head? == some c

def skip (n : Nat) (cursor : Cursor) : Cursor :=
  { cursor with
    rest := cursor.rest.drop n, column := cursor.column + n, index := cursor.index + n }

def skipWhile (p : Char → Bool) (cursor : Cursor) : Cursor :=
  cursor.skip (cursor.rest.takeWhile p).length

/-- Pass a line break if there is one. What it stands for in a scalar is a line feed, and the two
separators of Unicode stand for themselves. -/
def readBreak (cursor : Cursor) : List Char × Cursor :=
  let next (rest : List Char) (n : Nat) : Cursor := ⟨rest, cursor.line + 1, 0, cursor.index + n⟩
  match cursor.rest with
  | '\r' :: '\n' :: rest => (['\n'], next rest 2)
  | c :: rest =>
    if c == '\u2028' || c == '\u2029' then ([c], next rest 1)
    else if isBreak c then (['\n'], next rest 1)
    else ([], cursor)
  | [] => ([], cursor)

def skipBreak (cursor : Cursor) : Cursor := cursor.readBreak.2

def skipComment (cursor : Cursor) : Cursor :=
  if cursor.sees '#' then cursor.skipWhile (!isBreak ·) else cursor

/-- Whether three marks stand alone at the start of the line. -/
def atMark (mark : Char) (cursor : Cursor) : Bool :=
  cursor.column == 0 &&
    match cursor.rest with
    | a :: b :: c :: rest => a == mark && b == mark && c == mark && endsWord rest
    | _ => false

def atDocumentMark (cursor : Cursor) : Bool := cursor.atMark '-' || cursor.atMark '.'

end Cursor

structure Gap where
  /-- The blanks in front of the first line break. -/
  blanks : List Char := []
  /-- Whether a line has ended. -/
  broken : Bool := false
  /-- The first line break, unless it was escaped. -/
  first : List Char := []
  /-- The further line breaks. -/
  others : List Char := []

namespace Gap

/-- What a gap stands for: its blanks as they are; across lines a space, or one line break less. -/
def folded (gap : Gap) : List Char :=
  if !gap.broken then gap.blanks
  else if gap.first == ['\n'] then (if gap.others.isEmpty then [' '] else gap.others)
  else gap.first ++ gap.others

/-- Read on over blanks and line breaks, at most `fuel` of them. After a line break no tab may stand
left of `column`. -/
def read (column : Int) : Nat → Gap → Cursor → Option (Gap × Cursor)
  | 0, gap, cursor => some (gap, cursor)
  | fuel + 1, gap, cursor =>
    match cursor.rest with
    | [] => some (gap, cursor)
    | c :: _ =>
      if isBlank c then
        if gap.broken then
          if c == '\t' && (cursor.column : Int) < column then none
          else read column fuel gap (cursor.skip 1)
        else read column fuel { gap with blanks := gap.blanks ++ [c] } (cursor.skip 1)
      else if isBreak c then
        let (text, cursor) := cursor.readBreak
        if gap.broken then read column fuel { gap with others := gap.others ++ text } cursor
        else read column fuel { gap with broken := true, first := text } cursor
      else some (gap, cursor)

end Gap

end SchemaTypes.Yaml
