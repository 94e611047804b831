import SchemaTypes.Yaml.Cursor
import SchemaTypes.Text.Hexadecimal

/-! # Tags and directives

A tag is a handle, which stands for the start of a name, and the rest of the name. Directives before
a document give the version of the format and the meaning of handles.
-/

namespace SchemaTypes.Yaml

/-- The characters of tags that stand for themselves; a few more are allowed between angle
brackets. -/
def isTagChar (verbatim : Bool) (c : Char) : Bool :=
  isNameChar c || [';', '/', '?', ':', '@', '&', '=', '+', '$', '.', '!', '~', '*', '\'', '(',
    ')'].contains c || (verbatim && (c == ',' || c == '[' || c == ']'))

def percentByte? : List Char → Option Nat
  | '%' :: rest => Text.hexNumber? 2 rest
  | _ => none

def encodedLength? (byte : Nat) : Option Nat :=
  if byte < 0x80 then some 1
  else if 0xC0 ≤ byte ∧ byte < 0xE0 then some 2
  else if 0xE0 ≤ byte ∧ byte < 0xF0 then some 3
  else if 0xF0 ≤ byte ∧ byte < 0xF8 then some 4
  else none

/-- `count` continuation bytes in percent form, added to a number. -/
def continuation? : Nat → Nat → List Char → Option Nat
  | 0, n, _ => some n
  | count + 1, n, cs =>
    (percentByte? cs).bind fun byte =>
      if 0x80 ≤ byte ∧ byte < 0xC0 then continuation? count (n * 64 + (byte - 0x80)) (cs.drop 3)
      else none

/-- A character in percent form and the number of characters that it takes. -/
def percentChar? (cs : List Char) : Option (Char × Nat) := do
  let byte ← percentByte? cs
  let length ← encodedLength? byte
  let head := match length with
    | 1 => byte
    | 2 => byte - 0xC0
    | 3 => byte - 0xE0
    | _ => byte - 0xF0
  let n ← continuation? (length - 1) head (cs.drop 3)
  some (Char.ofNat n, 3 * length)

def tagChars (verbatim : Bool) : Nat → List Char → Cursor → Option (List Char × Cursor)
  | 0, _, _ => none
  | fuel + 1, text, cursor =>
    match cursor.rest with
    | '%' :: _ =>
      (percentChar? cursor.rest).bind fun (c, count) =>
        tagChars verbatim fuel (text ++ [c]) (cursor.skip count)
    | c :: _ =>
      if isTagChar verbatim c then tagChars verbatim fuel (text ++ [c]) (cursor.skip 1)
      else some (text, cursor)
    | [] => some (text, cursor)

def tagText (verbatim : Bool) (cursor : Cursor) : Option (List Char × Cursor) :=
  (tagChars verbatim (cursor.rest.length + 1) [] cursor).filter (!·.1.isEmpty)

/-- Read a handle: an exclamation mark, a name that may be empty, and a mark again if there is
one. -/
def tagHandle (cursor : Cursor) : Option (List Char × Cursor) :=
  if cursor.sees '!' then
    let name := (cursor.rest.drop 1).takeWhile isNameChar
    let cursor := cursor.skip (1 + name.length)
    if cursor.sees '!' then some ('!' :: name ++ ['!'], cursor.skip 1)
    else some ('!' :: name, cursor)
  else none

/-- A handle and what follows it in a tag. A verbatim tag has an empty handle, and so has the
single mark. -/
structure Tag where
  handle : String
  suffix : String

def readTag (flow : Bool) (cursor : Cursor) : Option (Tag × Cursor) := do
  let (tag, cursor) ←
    match cursor.rest with
    | '!' :: '<' :: _ => do
      let (text, cursor) ← tagText true (cursor.skip 2)
      if cursor.sees '>' then some (⟨"", String.ofList text⟩, cursor.skip 1) else none
    | _ => do
      let (handle, cursor) ← tagHandle cursor
      if 1 < handle.length ∧ handle.getLast? = some '!' then
        let (text, cursor) ← tagText false cursor
        some (⟨String.ofList handle, String.ofList text⟩, cursor)
      else
        let (text, cursor) ← tagChars false (cursor.rest.length + 1) (handle.drop 1) cursor
        some (if text.isEmpty then ⟨"", "!"⟩ else ⟨"!", String.ofList text⟩, cursor)
  if endsWord cursor.rest || (flow && cursor.sees ',') then some (tag, cursor) else none

inductive Directive where
  | version (major minor : Nat)
  | handle (handle meaning : String)

def versionNumber (cursor : Cursor) : Option (Nat × Cursor) :=
  let digits := cursor.rest.takeWhile Char.isDigit
  if digits.isEmpty || 9 < digits.length then none
  else some (Text.decimalValue digits, cursor.skip digits.length)

def readDirective (cursor : Cursor) : Option (Directive × Cursor) := do
  let cursor := cursor.skip 1
  let name := cursor.rest.takeWhile isNameChar
  let cursor := cursor.skip name.length
  if !endsWord cursor.rest then none else
    let cursor' := cursor.skipWhile isBlank
    let (directive, cursor) ←
      if name == ['Y', 'A', 'M', 'L'] then do
        let (major, cursor) ← versionNumber cursor'
        if cursor.sees '.' then
          let (minor, cursor) ← versionNumber (cursor.skip 1)
          some (Directive.version major minor, cursor)
        else none
      else if name == ['T', 'A', 'G'] then do
        let (handle, cursor) ← tagHandle cursor'
        if handle.length = 1 ∨ handle.getLast? = some '!' then
          if (cursor.rest.head?.map isBlank).getD false then
            let (meaning, cursor) ← tagText true (cursor.skipWhile isBlank)
            if endsWord cursor.rest then
              some (Directive.handle (String.ofList handle) (String.ofList meaning), cursor)
            else none
          else none
        else none
      else none
    let cursor := (cursor.skipWhile isBlank).skipComment
    if endsLine cursor.rest then some (directive, cursor.skipBreak) else none

end SchemaTypes.Yaml
