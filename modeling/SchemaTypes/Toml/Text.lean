import SchemaTypes.Text.Hexadecimal

/-! # Strings and keys

Four kinds of strings: between double quotes with escapes, between single quotes without any, and
both over several lines between triple quotes.
-/

namespace SchemaTypes.Toml

/-- The white space within a line. -/
def isBlank (c : Char) : Bool := c == ' ' || c == '\t'

def skipBlanks (cs : List Char) : List Char := cs.dropWhile isBlank

/-- The characters that may stand in comments and strings: all but the control characters other than
the tab. -/
def isTextChar (c : Char) : Bool := c == '\t' || (32 ≤ c.toNat && c.toNat != 127)

def newline? : List Char → Option (List Char)
  | '\n' :: rest => some rest
  | '\r' :: '\n' :: rest => some rest
  | _ => none

/-- The character of an escape after its backslash, and what follows it. -/
def escape? : List Char → Option (Char × List Char)
  | 'b' :: rest => some ('\x08', rest)
  | 't' :: rest => some ('\t', rest)
  | 'n' :: rest => some ('\n', rest)
  | 'f' :: rest => some ('\x0c', rest)
  | 'r' :: rest => some ('\r', rest)
  | '"' :: rest => some ('"', rest)
  | '\\' :: rest => some ('\\', rest)
  | 'u' :: rest => (Text.hexChar? 4 rest).map fun c => (c, rest.drop 4)
  | 'U' :: rest => (Text.hexChar? 8 rest).map fun c => (c, rest.drop 8)
  | _ => none

/-- Read a string between double quotes after the first; `read` holds the characters so far, last
first. -/
def basicString : Nat → List Char → List Char → Option (String × List Char)
  | 0, _, _ => none
  | _ + 1, _, [] => none
  | _ + 1, read, '"' :: rest => some (String.ofList read.reverse, rest)
  | fuel + 1, read, '\\' :: rest =>
    (escape? rest).bind fun (c, rest) => basicString fuel (c :: read) rest
  | fuel + 1, read, c :: rest => if isTextChar c then basicString fuel (c :: read) rest else none

def literalString (cs : List Char) : Option (String × List Char) :=
  let text := cs.takeWhile fun c => c != '\'' && isTextChar c
  match cs.drop text.length with
  | '\'' :: rest => some (String.ofList text, rest)
  | _ => none

/-- The quotes that end a string over several lines: three, after up to two that belong to it.
Yields the number of these and what follows. -/
def closing? (quote : Char) (cs : List Char) : Option (Nat × List Char) :=
  let count := min 5 (cs.takeWhile (· == quote)).length
  if count < 3 then none else some (count - 3, cs.drop count)

/-- Pass line breaks and white space, at most `fuel` of them. -/
def skipLines : Nat → List Char → List Char
  | 0, cs => cs
  | fuel + 1, cs =>
    match newline? (skipBlanks cs) with
    | some rest => skipLines fuel rest
    | none => skipBlanks cs

/-- Read a string between triple double quotes after the first ones. A backslash at the end of a
line joins it with the next text. -/
def basicLines : Nat → List Char → List Char → Option (String × List Char)
  | 0, _, _ => none
  | fuel + 1, read, cs =>
    match closing? '"' cs with
    | some (quotes, rest) =>
      some (String.ofList (read.reverse ++ List.replicate quotes '"'), rest)
    | none =>
      match cs with
      | [] => none
      | '\\' :: rest =>
        match newline? (skipBlanks rest) with
        | some rest => basicLines fuel read (skipLines fuel rest)
        | none => (escape? rest).bind fun (c, rest) => basicLines fuel (c :: read) rest
      | c :: rest =>
        match newline? cs with
        | some rest => basicLines fuel ('\n' :: read) rest
        | none => if isTextChar c then basicLines fuel (c :: read) rest else none

def literalLines : Nat → List Char → List Char → Option (String × List Char)
  | 0, _, _ => none
  | fuel + 1, read, cs =>
    match closing? '\'' cs with
    | some (quotes, rest) =>
      some (String.ofList (read.reverse ++ List.replicate quotes '\''), rest)
    | none =>
      match newline? cs, cs with
      | some rest, _ => literalLines fuel ('\n' :: read) rest
      | none, c :: rest => if isTextChar c then literalLines fuel (c :: read) rest else none
      | none, [] => none

/-- Read a string of any kind. A line break right after triple quotes is not part of the string. -/
def readString (cs : List Char) : Option (String × List Char) :=
  let fuel := cs.length + 1
  let first (rest : List Char) : List Char := (newline? rest).getD rest
  match cs with
  | '"' :: '"' :: '"' :: rest => basicLines fuel [] (first rest)
  | '"' :: rest => basicString fuel [] rest
  | '\'' :: '\'' :: '\'' :: rest => literalLines fuel [] (first rest)
  | '\'' :: rest => literalString rest
  | _ => none

def isKeyChar (c : Char) : Bool := c.isAlphanum || c == '_' || c == '-'

/-- Read a part of a key: bare, or a string of one line. -/
def readKeyPart (cs : List Char) : Option (String × List Char) :=
  match cs with
  | '"' :: rest => basicString (cs.length + 1) [] rest
  | '\'' :: rest => literalString rest
  | _ =>
    let name := cs.takeWhile isKeyChar
    if name.isEmpty then none else some (String.ofList name, cs.drop name.length)

def readKeyParts : Nat → List Char → Option (List String × List Char)
  | 0, _ => none
  | fuel + 1, cs => do
    let (part, rest) ← readKeyPart (skipBlanks cs)
    match skipBlanks rest with
    | '.' :: rest =>
      let (parts, rest) ← readKeyParts fuel rest
      some (part :: parts, rest)
    | rest => some ([part], rest)

/-- The number of levels from which on keys and values are refused. -/
def deepest : Nat := 80

/-- A key: the parts in front of the last one, and that one. -/
def readKey (cs : List Char) : Option ((List String × String) × List Char) := do
  let (parts, rest) ← readKeyParts (cs.length + 1) cs
  let last ← parts.getLast?
  if parts.length < deepest then some ((parts.dropLast, last), rest) else none

end SchemaTypes.Toml
