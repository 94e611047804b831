import SchemaTypes.TypeTree.Literal

/-! # Enumerations

The declaration of an `enum`: one line for every value other than `null`, with a key that is made
from the value and counted up where an earlier value has taken it.
-/

namespace SchemaTypes.Enumeration

open SchemaTypes.Json

/-- Capitals, digits and underscores for a text: every run of other characters becomes one
underscore. The flag tells whether such a run is going on. -/
def keyChars : Bool → List Char → List Char
  | _, [] => []
  | inRun, c :: cs =>
    if c.isAlphanum || c == '_' then c.toUpper :: keyChars false cs
    else if inRun then keyChars true cs
    else '_' :: keyChars true cs

/-- The text that a member's key is made from: that of a string, or the JSON text. -/
def keySource : Value → String
  | .string text => text
  | value => value.compact

/-- The key of a value, `EMPTY` for the empty text and with an underscore in front of a digit. -/
def key (value : Value) : String :=
  match keyChars false (keySource value).toList with
  | [] => "EMPTY"
  | c :: cs => String.ofList (if c.isDigit then '_' :: c :: cs else c :: cs)

/-- A key counted up. The numbers have no end here; counted in 32 bits they would be the same for
less than `2 ^ 31` equal keys, and overflow behind that. -/
def numbered (base : String) (n : Nat) : String := base ++ "_" ++ toString n

/-- A key that is not taken: the key itself, or the first of its numbered forms, from two on, that
is free. There are more of these than taken keys. -/
def freeKey (taken : List String) (base : String) : String :=
  let further := (List.range' 2 taken.length).map (numbered base)
  if taken.contains base then (further.find? fun key => !taken.contains key).getD base else base

/-- The members of an enumeration as keys and literals, given the keys that are taken. -/
def members (taken : List String) : List Value → List (String × String)
  | [] => []
  | .null :: values => members taken values
  | value :: values =>
    let key := freeKey taken (key value)
    (key, value.literal) :: members (taken ++ [key]) values

def memberLine (member : String × String) : String :=
  "  " ++ member.1 ++ " = " ++ member.2 ++ ",\n"

def declaration (name : String) (values : List Value) : String :=
  "enum " ++ name ++ " \x7b\n" ++ String.join ((members [] values).map memberLine) ++ "\x7d"

end SchemaTypes.Enumeration
