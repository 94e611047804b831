import SchemaTypes.Decimal.Layout

/-! # JSON values

Objects are lists of fields in the order of the text, because the order of properties and of
declarations in what is generated is the order of the fields. The readers produce objects without
repeated names; `Fields.insert` is how they keep it so.
-/

namespace SchemaTypes.Json

open SchemaTypes.Decimal

/-- A number: whole and within 64 bits, or binary floating point. -/
inductive Number where
  | whole (value : Int)
  | real (value : Binary64)
deriving DecidableEq

/-- The text of a number: decimal digits, or the shortest decimal that reads back. -/
def Number.text : Number → String
  | .whole n => toString n
  | .real x => x.text

inductive Value where
  | null
  | bool (value : Bool)
  | number (value : Number)
  | string (text : String)
  | array (items : List Value)
  | object (fields : List (String × Value))
deriving Inhabited

abbrev Fields := List (String × Value)

def Fields.get? (name : String) : Fields → Option Value
  | [] => none
  | (key, value) :: rest => if key = name then some value else Fields.get? name rest

/-- Give a field a value: in its place if the name is there, else as the last field. -/
def Fields.insert (name : String) (value : Value) : Fields → Fields
  | [] => [(name, value)]
  | (key, old) :: rest =>
    if key = name then (key, value) :: rest else (key, old) :: Fields.insert name value rest

/-- Fields in the order of a text; a repeated name keeps its first place and its last value. -/
def Fields.ofList (entries : List (String × Value)) : Fields :=
  entries.foldl (fun fields entry => Fields.insert entry.1 entry.2 fields) []

namespace Value

/-- The value of a field, if the value is an object that has it. -/
def get? (name : String) : Value → Option Value
  | .object fields => Fields.get? name fields
  | _ => none

def string? : Value → Option String
  | .string text => some text
  | _ => none

def bool? : Value → Option Bool
  | .bool value => some value
  | _ => none

def items? : Value → Option (List Value)
  | .array items => some items
  | _ => none

def fields? : Value → Option Fields
  | .object fields => some fields
  | _ => none

def isNull : Value → Bool
  | .null => true
  | _ => false

def text? (name : String) (value : Value) : Option String :=
  (value.get? name).bind string?

def ofNat (n : Nat) : Value := .number (.whole n)

end Value

end SchemaTypes.Json
