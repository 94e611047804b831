import SchemaTypes.Yaml.Cursor

/-! # Block scalars

A scalar that consists of the lines below its indicator. Its header may fix the indentation and what
becomes of the line breaks at the end. Literal scalars keep their line breaks; folded ones join two
lines by a space unless one of them starts with a blank.
-/

namespace SchemaTypes.Yaml

/-- What becomes of the line breaks at the end of a block scalar. -/
inductive Chomping where
  | strip
  | clip
  | keep
deriving DecidableEq

def Chomping.ofChar? : Char → Option Chomping
  | '+' => some .keep
  | '-' => some .strip
  | _ => none

def readIndentation (cursor : Cursor) : Option (Nat × Cursor) :=
  match cursor.rest with
  | c :: _ =>
    if c == '0' then none
    else if c.isDigit then some (c.toNat - 48, cursor.skip 1)
    else some (0, cursor)
  | [] => some (0, cursor)

def readChomping (cursor : Cursor) : Option Chomping × Cursor :=
  match cursor.rest.head?.bind Chomping.ofChar? with
  | some chomping => (some chomping, cursor.skip 1)
  | none => (none, cursor)

/-- Read the two indicators of a header, which come in either order; indentation zero stands for a
missing one. -/
def readHeader (cursor : Cursor) : Option (Chomping × Nat × Cursor) := do
  match readChomping cursor with
  | (some chomping, cursor) =>
    let (increment, cursor) ← readIndentation cursor
    some (chomping, increment, cursor)
  | (none, cursor) =>
    let (increment, cursor) ← readIndentation cursor
    if increment = 0 then some (.clip, 0, cursor) else
      let (chomping, cursor) := readChomping cursor
      some (chomping.getD .clip, increment, cursor)

/-- Read indentation and blank lines, on from the line breaks read so far. While the indentation is
not known, all spaces belong to it. Yields the largest column reached and the line breaks. -/
def readBlankLines (indent : Option Nat) :
    Nat → Nat → List Char → Cursor → Option (Nat × List Char × Cursor)
  | 0, _, _, _ => none
  | fuel + 1, deepest, breaks, cursor =>
    let spaces := (cursor.rest.takeWhile (· == ' ')).length
    let cursor := cursor.skip (match indent with
      | some n => min spaces (n - cursor.column)
      | none => spaces)
    let deepest := max deepest cursor.column
    let short := match indent with
      | some n => cursor.column < n
      | none => true
    if short && cursor.sees '\t' then none
    else if !cursor.rest.isEmpty && endsLine cursor.rest then
      let (text, cursor) := cursor.readBreak
      readBlankLines indent fuel deepest (breaks ++ text) cursor
    else some (deepest, breaks, cursor)

structure BlockText where
  text : List Char := []
  /-- Whether the last line starts with a blank. -/
  afterBlank : Bool := false
  /-- The line break of the last line. -/
  last : List Char := []
  /-- The line breaks of the blank lines after it. -/
  blankLines : List Char := []

def BlockText.joined (literal startsBlank : Bool) (block : BlockText) : List Char :=
  if !literal && block.last == ['\n'] && !block.afterBlank && !startsBlank then
    block.text ++ (if block.blankLines.isEmpty then [' '] else block.blankLines)
  else block.text ++ block.last ++ block.blankLines

def readBlockLines (literal : Bool) (indent : Nat) :
    Nat → BlockText → Cursor → Option (BlockText × Cursor)
  | 0, _, _ => none
  | fuel + 1, block, cursor =>
    if cursor.column == indent && !cursor.rest.isEmpty then do
      let startsBlank := match cursor.rest with
        | c :: _ => isBlank c
        | [] => false
      let line := cursor.rest.takeWhile (!isBreak ·)
      let (last, cursor) := (cursor.skip line.length).readBreak
      let (_, blankLines, cursor) ← readBlankLines (some indent) fuel 0 [] cursor
      readBlockLines literal indent fuel
        ⟨block.joined literal startsBlank ++ line, startsBlank, last, blankLines⟩ cursor
    else some (block, cursor)

/-- Read a block scalar after its indicator, inside blocks of the indentation `outer`, which is
negative outside of any block. No more than `limit` lines are read. -/
def blockScalar (literal : Bool) (outer : Int) (limit : Nat) (cursor : Cursor) :
    Option (List Char × Cursor) := do
  let (chomping, increment, cursor) ← readHeader cursor
  let cursor := (cursor.skipWhile isBlank).skipComment
  if !endsLine cursor.rest then none else
    let cursor := cursor.skipBreak
    let given := if increment = 0 then none
      else some (if 0 ≤ outer then outer.toNat + increment else increment)
    let (deepest, blankLines, cursor) ← readBlankLines given limit 0 [] cursor
    let indent := given.getD (max deepest (max (outer + 1).toNat 1))
    let (block, cursor) ←
      readBlockLines literal indent limit { blankLines := blankLines } cursor
    let text := match chomping with
      | .strip => block.text
      | .clip => block.text ++ block.last
      | .keep => block.text ++ block.last ++ block.blankLines
    some (text, cursor)

end SchemaTypes.Yaml
