import SchemaTypes.Json.Value
import SchemaTypes.Text.Split
import SchemaTypes.Text.Hexadecimal

/-! # Reading JSON

A strict reader of the grammar of RFC 8259: four blank characters, no comments, no trailing commas,
no bare control characters and no unpaired surrogates in strings. Arrays and objects nest at most
`Reader.deepest` levels. Numbers without point and exponent that fit in 64 bits stay whole; all
others are binary floating point and refused when they are too large for it.
-/

namespace SchemaTypes.Json

open SchemaTypes.Decimal

namespace Reader

/-- The greatest number of arrays and objects around a value. -/
def deepest : Nat := 127

def skipBlanks (cs : List Char) : List Char :=
  cs.dropWhile fun c => c == ' ' || c == '\n' || c == '\t' || c == '\r'

/-! ## Numbers -/

/-- The greatest whole number that is collected digit by digit. -/
def greatestWhole : Nat := 0xFFFFFFFFFFFFFFFF

/-- Collect leading digits as long as the number stays within 64 bits, counting the digits taken.
The rest starts with a digit exactly when the next one would not fit. -/
def takeDigits (acc : Nat) (count : Nat) : List Char → Nat × Nat × List Char
  | [] => (acc, count, [])
  | c :: cs =>
    let next := acc * 10 + (c.toNat - 48)
    if c.isDigit && next ≤ greatestWhole then takeDigits next (count + 1) cs
    else (acc, count, c :: cs)

def leastMagnitude : Nat := 0x8000000000000000

/-- The power of ten `10 ^ n` as a number of the format, for `n` up to 308. -/
def powerOfTen (n : Nat) : Option Binary64 := Binary64.ofScientific false 1 n

/-- Divide by `10 ^ 308` until the exponent that is left is at least -308. -/
def scaleDown : Nat → Binary64 → Nat → Option (Binary64 × Nat)
  | 0, _, _ => none
  | fuel + 1, x, exponent =>
    if exponent ≤ 308 ∨ x.mantissa = 0 then some (x, exponent) else
      (powerOfTen 308).bind fun p => (x.div p).bind fun y => scaleDown fuel y (exponent - 308)

/-- The number `digits · 10 ^ exponent`: the digits are rounded first, and the product or quotient
with a power of ten is rounded again. None when it is too large. -/
def scaled (digits : Nat) (exponent : Int) : Option Binary64 :=
  (Binary64.nearest false digits 1).bind fun x =>
    if x.mantissa = 0 then some x
    else if 308 < exponent then none
    else if 0 ≤ exponent then (powerOfTen exponent.toNat).bind x.mul
    -- Four divisions by `10 ^ 308` bring any number of 64 bits down to zero.
    else (scaleDown 8 x exponent.natAbs).bind fun (y, n) =>
      if y.mantissa = 0 then some y else (powerOfTen n).bind y.div

/-- The greatest exponent that is told apart from larger ones. -/
def greatestExponent : Nat := 0x7FFFFFFF

def readExponent (digits : Nat) (power : Int) (cs : List Char) :
    Option (Binary64 × List Char) :=
  let (negative, cs) := match cs with
    | '+' :: cs => (false, cs)
    | '-' :: cs => (true, cs)
    | cs => (false, cs)
  let (exponent, rest) := cs.span Char.isDigit
  if exponent.isEmpty then none else
    let n := Text.decimalValue exponent
    if greatestExponent < n then
      if digits ≠ 0 ∧ !negative then none else some (Binary64.zero false, rest)
    else (scaled digits (if negative then power - n else power + n)).map fun x => (x, rest)

def finishReal (digits : Nat) (power : Int) : List Char → Option (Binary64 × List Char)
  | 'e' :: cs | 'E' :: cs => readExponent digits power cs
  | cs => (scaled digits power).map fun x => (x, cs)

/-- Read the digits after a decimal point and finish the number. Digits that no longer fit are
read and dropped. -/
def readFraction (digits : Nat) (power : Int) (cs : List Char) : Option (Binary64 × List Char) :=
  match cs with
  | c :: _ =>
    if c.isDigit then
      let (digits, count, rest) := takeDigits digits 0 cs
      finishReal digits (power - count) (rest.dropWhile Char.isDigit)
    else none
  | [] => none

def readReal (digits : Nat) (power : Int) : List Char → Option (Binary64 × List Char)
  | '.' :: cs => readFraction digits power cs
  | cs => finishReal digits power cs

/-- A whole number with its sign, or the floating point number that stands for it: minus zero, and
what is below the least number of 64 bits. -/
def wholeNumber (negative : Bool) (n : Nat) : Option Number :=
  if !negative then some (.whole n)
  else if 0 < n ∧ n ≤ leastMagnitude then some (.whole (-(n : Int)))
  else (Binary64.nearest true n 1).map .real

def readUnsigned (negative : Bool) (cs : List Char) : Option (Number × List Char) :=
  let real (r : Option (Binary64 × List Char)) : Option (Number × List Char) :=
    r.map fun (x, rest) => (.real (if negative then x.neg else x), rest)
  match cs with
  | '0' :: c :: cs =>
    if c.isDigit then none
    else if c == '.' || c == 'e' || c == 'E' then real (readReal 0 0 (c :: cs))
    else (wholeNumber negative 0).map fun n => (n, c :: cs)
  | '0' :: [] => (wholeNumber negative 0).map fun n => (n, [])
  | c :: _ =>
    if !c.isDigit then none else
      let (digits, _, rest) := takeDigits 0 0 cs
      let (dropped, rest) := rest.span Char.isDigit
      match rest with
      | '.' :: _ | 'e' :: _ | 'E' :: _ => real (readReal digits dropped.length rest)
      | _ =>
        if dropped.isEmpty then (wholeNumber negative digits).map fun n => (n, rest)
        else real (readReal digits dropped.length rest)
  | [] => none

def readNumber : List Char → Option (Number × List Char)
  | '-' :: cs => readUnsigned true cs
  | cs => readUnsigned false cs

/-! ## Strings -/

/-- The code unit of four hexadecimal digits and what follows. -/
def readUnit (cs : List Char) : Option (Nat × List Char) :=
  (Text.hexNumber? 4 cs).map fun unit => (unit, cs.drop 4)

/-- The character of one or two code units after `\u`. -/
def readCodeUnits (cs : List Char) : Option (Char × List Char) := do
  let (unit, rest) ← readUnit cs
  if 0xDC00 ≤ unit ∧ unit ≤ 0xDFFF then none
  else if 0xD800 ≤ unit ∧ unit ≤ 0xDBFF then
    match rest with
    | '\\' :: 'u' :: rest =>
      let (second, rest) ← readUnit rest
      if 0xDC00 ≤ second ∧ second ≤ 0xDFFF then
        some (Char.ofNat (0x10000 + (unit - 0xD800) * 0x400 + (second - 0xDC00)), rest)
      else none
    | _ => none
  else some (Char.ofNat unit, rest)

def readEscape : List Char → Option (Char × List Char)
  | '"' :: rest => some ('"', rest)
  | '\\' :: rest => some ('\\', rest)
  | '/' :: rest => some ('/', rest)
  | 'b' :: rest => some ('\x08', rest)
  | 'f' :: rest => some ('\x0c', rest)
  | 'n' :: rest => some ('\n', rest)
  | 'r' :: rest => some ('\r', rest)
  | 't' :: rest => some ('\t', rest)
  | 'u' :: rest => readCodeUnits rest
  | _ => none

/-- Read a string after its opening quote, in at most `fuel` steps; `read` holds the characters
before, last first. -/
def readString : Nat → List Char → List Char → Option (String × List Char)
  | 0, _, _ => none
  | _ + 1, _, [] => none
  | _ + 1, read, '"' :: rest => some (String.ofList read.reverse, rest)
  | fuel + 1, read, '\\' :: rest =>
    (readEscape rest).bind fun (c, rest) => readString fuel (c :: read) rest
  | fuel + 1, read, c :: rest =>
    if c.toNat < 32 then none else readString fuel (c :: read) rest

/-! ## Values -/

/-- The items of an array after the bracket or a comma, given a reader of one of them; at most
`fuel` items are read. -/
def readItems (item : List Char → Option (Value × List Char)) :
    Nat → List Char → Option (List Value × List Char)
  | 0, _ => none
  | fuel + 1, cs => do
    let (value, rest) ← item cs
    match skipBlanks rest with
    | ',' :: rest =>
      let (values, rest) ← readItems item fuel rest
      some (value :: values, rest)
    | ']' :: rest => some ([value], rest)
    | _ => none

/-- The fields of an object after the brace or a comma, given a reader of one value; at most `fuel`
fields are read, with names of at most `limit` characters. -/
def readFields (limit : Nat) (item : List Char → Option (Value × List Char)) :
    Nat → List Char → Option (List (String × Value) × List Char)
  | 0, _ => none
  | fuel + 1, cs => do
    let '"' :: rest := skipBlanks cs | none
    let (name, rest) ← readString limit [] rest
    let ':' :: rest := skipBlanks rest | none
    let (value, rest) ← item rest
    match skipBlanks rest with
    | ',' :: rest =>
      let (fields, rest) ← readFields limit item fuel rest
      some ((name, value) :: fields, rest)
    | '}' :: rest => some ([(name, value)], rest)
    | _ => none

def readConstant (cs : List Char) : Option (Value × List Char) :=
  match Text.after? ['n', 'u', 'l', 'l'] cs with
  | some rest => some (.null, rest)
  | none =>
    match Text.after? ['t', 'r', 'u', 'e'] cs with
    | some rest => some (.bool true, rest)
    | none => (Text.after? ['f', 'a', 'l', 's', 'e'] cs).map fun rest => (.bool false, rest)

/-- Read a value that may hold at most `depth` nested levels. The limit is more than the number of
characters, which bounds every loop. -/
def readValue (limit : Nat) (depth : Nat) (cs : List Char) : Option (Value × List Char) :=
  match skipBlanks cs with
  | '"' :: rest => (readString limit [] rest).map fun (s, rest) => (.string s, rest)
  | '[' :: rest =>
    match depth with
    | 0 => none
    | depth + 1 =>
      match skipBlanks rest with
      | ']' :: rest => some (.array [], rest)
      | rest => (readItems (readValue limit depth) limit rest).map fun (vs, rest) =>
        (.array vs, rest)
  | '{' :: rest =>
    match depth with
    | 0 => none
    | depth + 1 =>
      match skipBlanks rest with
      | '}' :: rest => some (.object [], rest)
      | rest => (readFields limit (readValue limit depth) limit rest).map fun (fs, rest) =>
        (.object (Fields.ofList fs), rest)
  | rest =>
    match rest with
    | 'n' :: _ | 't' :: _ | 'f' :: _ => readConstant rest
    | _ => (readNumber rest).map fun (n, rest) => (.number n, rest)

end Reader

def Value.parse? (text : String) : Option Value :=
  let cs := text.toList
  match Reader.readValue (cs.length + 1) Reader.deepest cs with
  | some (value, rest) => if (Reader.skipBlanks rest).isEmpty then some value else none
  | none => none

end SchemaTypes.Json
