import SchemaTypes.Yaml.Cursor
import SchemaTypes.Text.Hexadecimal

/-! # Quoted scalars

Between single quotes the only escape is the doubled quote. Between double quotes a backslash starts
an escape, or joins two lines. Gaps across lines are folded as in plain scalars.
-/

namespace SchemaTypes.Yaml

/-- What the letter after a backslash stands for, given what follows it: a character, and the number
of digits that belong to it. -/
def escaped? (letter : Char) (rest : List Char) : Option (Char × Nat) :=
  match letter with
  | '0' => some ('\x00', 0)
  | 'a' => some ('\x07', 0)
  | 'b' => some ('\x08', 0)
  | 't' | '\t' => some ('\t', 0)
  | 'n' => some ('\n', 0)
  | 'v' => some ('\x0b', 0)
  | 'f' => some ('\x0c', 0)
  | 'r' => some ('\r', 0)
  | 'e' => some ('\x1b', 0)
  | ' ' => some (' ', 0)
  | '"' => some ('"', 0)
  | '/' => some ('/', 0)
  | '\\' => some ('\\', 0)
  | 'N' => some ('\u0085', 0)
  | '_' => some ('\u00a0', 0)
  | 'L' => some ('\u2028', 0)
  | 'P' => some ('\u2029', 0)
  | 'x' => (Text.hexChar? 2 rest).map fun c => (c, 2)
  | 'u' => (Text.hexChar? 4 rest).map fun c => (c, 4)
  | 'U' => (Text.hexChar? 8 rest).map fun c => (c, 8)
  | _ => none

/-- Read a run without white space; `read` holds the characters so far, last first. Yields the run
and whether an escaped line break ended it. -/
def quotedWord (quote : Char) :
    Nat → List Char → Cursor → Option (List Char × Bool × Cursor)
  | 0, _, _ => none
  | fuel + 1, read, cursor =>
    let stop (cursor : Cursor) := some (read.reverse, false, cursor)
    match cursor.rest with
    | [] => stop cursor
    | c :: rest =>
      if isBlank c || isBreak c then stop cursor
      else if c == quote then
        match quote, rest with
        | '\'', '\'' :: _ => quotedWord quote fuel ('\'' :: read) (cursor.skip 2)
        | _, _ => stop cursor
      else if quote == '"' && c == '\\' then
        match rest with
        | [] => none
        | letter :: rest =>
          if isBreak letter then some (read.reverse, true, (cursor.skip 1).skipBreak)
          else
            (escaped? letter rest).bind fun (c, digits) =>
              quotedWord quote fuel (c :: read) (cursor.skip (2 + digits))
      else quotedWord quote fuel (c :: read) (cursor.skip 1)

def quotedScalar (quote : Char) : Nat → List Char → Cursor → Option (List Char × Cursor)
  | 0, _, _ => none
  | fuel + 1, text, cursor =>
    if cursor.atDocumentMark || cursor.rest.isEmpty then none else do
      let (word, escapedBreak, cursor) ← quotedWord quote fuel [] cursor
      if cursor.sees quote then some (text ++ word, cursor.skip 1) else
        let (gap, cursor) ← Gap.read 0 fuel { broken := escapedBreak } cursor
        quotedScalar quote fuel (text ++ word ++ gap.folded) cursor

end SchemaTypes.Yaml
