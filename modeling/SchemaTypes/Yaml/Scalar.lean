import SchemaTypes.Json.Value
import SchemaTypes.Text.Hexadecimal

/-! # The value of a scalar

A plain scalar without a tag may stand for null, a truth value or a number; all other scalars are
strings, unless a tag of the core schema asks for one of these kinds.
-/

namespace SchemaTypes.Yaml.Scalar

open SchemaTypes.Json SchemaTypes.Decimal

def isNull (cs : List Char) : Bool :=
  ["null", "Null", "NULL", "~"].any fun word => word.toList == cs

def bool? (cs : List Char) : Option Bool :=
  if ["true", "True", "TRUE"].any fun word => word.toList == cs then some true
  else if ["false", "False", "FALSE"].any fun word => word.toList == cs then some false
  else none

/-- The number that digits of a base stand for; none if there is no digit or another character. -/
def digits? (base : Nat) (cs : List Char) : Option Nat :=
  if cs.isEmpty then none else
    cs.foldl (fun acc c =>
      acc.bind fun n =>
        (Text.hexValue? c).bind fun v => if v < base then some (n * base + v) else none) (some 0)

def signed (cs : List Char) : Option Char × List Char :=
  match cs with
  | '+' :: rest => (some '+', rest)
  | '-' :: rest => (some '-', rest)
  | rest => (none, rest)

/-- Whether a text consists of digits and yet is no number, for a zero stands in front. -/
def isZeroPadded (cs : List Char) : Bool :=
  match (signed cs).2 with
  | '0' :: c :: rest => (c :: rest).all Char.isDigit
  | _ => false

/-- The absolute value of a whole number without sign: digits of base ten, or of the base that a
letter after a zero names. -/
def magnitude? (cs : List Char) : Option Nat :=
  match cs with
  | '0' :: 'x' :: rest => digits? 16 rest
  | '0' :: 'o' :: rest => digits? 8 rest
  | '0' :: 'b' :: rest => digits? 2 rest
  | rest => if isZeroPadded rest then none else digits? 10 rest

def int? (cs : List Char) : Option Int :=
  match signed cs with
  | (some '-', rest) => (magnitude? rest).map fun n => -(n : Int)
  | (_, rest) => (magnitude? rest).map fun n => (n : Int)

/-- A decimal with optional point and exponent as digits and a power of ten. -/
def decimal? (cs : List Char) : Option (Nat × Int) :=
  let (whole, rest) := cs.span Char.isDigit
  let (fraction, rest) := match rest with
    | '.' :: rest => rest.span Char.isDigit
    | rest => ([], rest)
  let digits := whole ++ fraction
  if digits.isEmpty then none else
    let n := Text.decimalValue digits
    match rest with
    | [] => some (n, -(fraction.length : Int))
    | e :: rest =>
      if e == 'e' || e == 'E' then
        let (sign, rest) := signed rest
        (digits? 10 rest).map fun exponent =>
          (n, (if sign == some '-' then -(exponent : Int) else exponent) - fraction.length)
      else none

def exponentBound (digits : List Char) : Int := 400 + digits.length

def float? (cs : List Char) : Option Binary64 :=
  let (sign, rest) := signed cs
  (decimal? rest).bind fun (n, power) =>
    let negative := sign == some '-'
    let bound := exponentBound cs
    if n = 0 ∨ power < -bound then some (Binary64.zero negative)
    else if bound < power then none
    else Binary64.ofScientific negative n power

/-- Whether a text names infinity, with a sign or without, or no number at all. -/
def isNonFinite (cs : List Char) : Bool :=
  let isInfinity (cs : List Char) := [".inf", ".Inf", ".INF"].any fun word => word.toList == cs
  isInfinity (signed cs).2 || [".nan", ".NaN", ".NAN"].any fun word => word.toList == cs

/-- A number as a JSON value: numbers that are not finite become null. -/
def floatValue? (cs : List Char) : Option Value :=
  if isNonFinite cs then some .null else (float? cs).map fun x => .number (.real x)

def fitsWord (n : Int) : Bool := -0x8000000000000000 ≤ n && n ≤ 0xFFFFFFFFFFFFFFFF

def fitsDoubleWord (n : Int) : Bool :=
  -0x80000000000000000000000000000000 ≤ n && n ≤ 0xFFFFFFFFFFFFFFFFFFFFFFFFFFFFFFFF

/-- What a text says about its value: nothing, that it has none, or which it is. -/
inductive Reading where
  | other
  | refused
  | is (value : Value)

/-- The reading as a whole number. Numbers beyond 64 bits are refused, and beyond 128 bits no whole
numbers any more. -/
def readInt (cs : List Char) : Reading :=
  match int? cs with
  | some n =>
    if fitsWord n then .is (.number (.whole n)) else if fitsDoubleWord n then .refused else .other
  | none => .other

def plain? (text : String) : Option Value :=
  let cs := text.toList
  if cs.isEmpty || isNull cs then some .null else
    match bool? cs with
    | some b => some (.bool b)
    | none =>
      match readInt cs with
      | .is value => some value
      | .refused => none
      | .other =>
        some (if isZeroPadded cs then .string text else (floatValue? cs).getD (.string text))

def coreTag : String := "tag:yaml.org,2002:"

/-- The value of a scalar with a tag. Tags of one's own have no value. -/
def tagged? (tag text : String) : Option Value :=
  let cs := text.toList
  if tag.toList.head? == some '!' then none
  else if tag = coreTag ++ "null" then (if isNull cs then some .null else none)
  else if tag = coreTag ++ "bool" then (bool? cs).map .bool
  else if tag = coreTag ++ "int" then
    match readInt cs with
    | .is value => some value
    | _ => none
  else if tag = coreTag ++ "float" then floatValue? cs
  else some (.string text)

end SchemaTypes.Yaml.Scalar
