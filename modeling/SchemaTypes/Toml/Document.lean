import SchemaTypes.Toml.Table
import SchemaTypes.Toml.Scalar

/-! # Reading TOML

A text is a sequence of lines, each of them an entry, the header of a table or neither. Entries go
to the table of the header before them.
-/

namespace SchemaTypes.Toml

/-- Pass white space, line breaks and comments, at most `fuel` lines of them; none if a comment
holds a control character. -/
def skipVoid : Nat → List Char → Option (List Char)
  | 0, cs => some cs
  | fuel + 1, cs =>
    match skipBlanks cs with
    | '#' :: rest =>
      let rest := rest.dropWhile isTextChar
      match newline? rest with
      | some rest => skipVoid fuel rest
      | none => if rest.isEmpty then some [] else none
    | rest =>
      match newline? rest with
      | some rest => skipVoid fuel rest
      | none => some rest

/-- The end of a line: white space, a comment, and a line break or the end of the text. -/
def lineEnd (cs : List Char) : Option (List Char) :=
  let rest := match skipBlanks cs with
    | '#' :: rest => rest.dropWhile isTextChar
    | rest => rest
  if rest.isEmpty then some [] else newline? rest

def readScalar (cs : List Char) : Option (Item × List Char) :=
  if startsTime cs then (readTime cs).map fun rest => (.time, rest)
  else if startsDate cs then (readMoment cs).map fun rest => (.time, rest)
  else
    match readFloat cs with
    | .ends rest => some (.number, rest)
    | .refused => none
    | .other => (readInteger cs).map fun rest => (.number, rest)

def readItems (item : List Char → Option (Item × List Char)) :
    Nat → List Char → Option (List Item × List Char)
  | 0, _ => none
  | fuel + 1, cs => do
    match ← skipVoid (cs.length + 1) cs with
    | ']' :: rest => some ([], rest)
    | cs =>
      let (first, rest) ← item cs
      match ← skipVoid (rest.length + 1) rest with
      | ',' :: rest =>
        let (items, rest) ← readItems item fuel rest
        some (first :: items, rest)
      | ']' :: rest => some ([first], rest)
      | _ => none

def readEntry (item : List Char → Option (Item × List Char)) (cs : List Char) :
    Option ((List String × String) × Item × List Char) := do
  let (key, '=' :: rest) ← readKey cs | none
  let (value, rest) ← item (skipBlanks rest)
  some (key, value, rest)

def readInline (item : List Char → Option (Item × List Char)) :
    Nat → Entries → List Char → Option (Entries × List Char)
  | 0, _, _ => none
  | fuel + 1, entries, cs => do
    let ((path, key), value, rest) ← readEntry item cs
    let (_, entries) ← entries.addDotted? path key value .inline
    match skipBlanks rest with
    | ',' :: rest => readInline item fuel entries rest
    | '}' :: rest => some (entries, rest)
    | _ => none

/-- Read a value that may hold less than `depth` levels of arrays and tables. -/
def readValue (depth : Nat) (cs : List Char) : Option (Item × List Char) :=
  match cs with
  | '"' :: _ | '\'' :: _ => (readString cs).map fun (text, rest) => (.string text, rest)
  | 't' :: 'r' :: 'u' :: 'e' :: rest => some (.boolean true, rest)
  | 'f' :: 'a' :: 'l' :: 's' :: 'e' :: rest => some (.boolean false, rest)
  | '[' :: rest =>
    match depth with
    | 0 => none
    | depth + 1 =>
      (readItems (readValue depth) (rest.length + 1) rest).map fun (items, rest) =>
        (.array items, rest)
  | '{' :: rest =>
    match depth with
    | 0 => none
    | depth + 1 =>
      match skipBlanks rest with
      | '}' :: rest => some (.table .inline [], rest)
      | rest =>
        (readInline (readValue depth) (rest.length + 1) [] rest).map fun (entries, rest) =>
          (.table .inline entries, rest)
  | _ => readScalar cs

def readLines : Nat → List String → Entries → List Char → Option Entries
  | 0, _, _, _ => none
  | fuel + 1, header, entries, cs => do
    match ← skipVoid (cs.length + 1) cs with
    | [] => some entries
    | '[' :: '[' :: rest =>
      let ((path, key), ']' :: ']' :: rest) ← readKey rest | none
      let entries ← entries.openRow? path key
      readLines fuel (path ++ [key]) entries (← lineEnd rest)
    | '[' :: rest =>
      let ((path, key), ']' :: rest) ← readKey rest | none
      let entries ← entries.openTable? path key
      readLines fuel (path ++ [key]) entries (← lineEnd rest)
    | cs =>
      let ((path, key), value, rest) ← readEntry (readValue (deepest - 1)) cs
      let (_, entries) ← entries.alter? false
        (fun origin sub => sub.addDotted? path key value origin) header .header
      readLines fuel header entries (← lineEnd rest)

/-- The entries of a TOML text; none if it is not TOML. A byte order mark in front is no part of the
text. -/
def parse? (text : String) : Option Entries :=
  let cs := match text.toList with
    | '\ufeff' :: cs => cs
    | cs => cs
  readLines (cs.length + 1) [] [] cs

end SchemaTypes.Toml
