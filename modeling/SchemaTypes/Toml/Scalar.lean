import SchemaTypes.Toml.Text
import SchemaTypes.Decimal.Binary64

/-! # Numbers and times

What is a number and what is a time. Their values are not kept, but a number must be within the
range of its type, and a date must be in the calendar.
-/

namespace SchemaTypes.Toml

open SchemaTypes.Decimal

def isDigitOf (base : Nat) (c : Char) : Bool :=
  match Text.hexValue? c with
  | some v => v < base
  | none => false

/-- Further digits of a base; an underscore must stand in front of one of them. -/
def moreDigits? (base : Nat) : List Char → Option (List Char × List Char)
  | [] => some ([], [])
  | ['_'] => none
  | '_' :: c :: rest =>
    if isDigitOf base c then (moreDigits? base rest).map fun (more, rest) => (c :: more, rest)
    else none
  | c :: rest =>
    if isDigitOf base c then (moreDigits? base rest).map fun (more, rest) => (c :: more, rest)
    else some ([], c :: rest)

/-- Digits of a base, where an underscore may stand between two of them; none if there is not at
least one digit. -/
def digits? (base : Nat) : List Char → Option (List Char × List Char)
  | [] => none
  | c :: rest =>
    if isDigitOf base c then (moreDigits? base rest).map fun (more, rest) => (c :: more, rest)
    else none

def valueOf (base : Nat) (digits : List Char) : Nat :=
  digits.foldl (fun n c => n * base + (Text.hexValue? c).getD 0) 0

def signed : List Char → Bool × List Char
  | '+' :: rest => (false, rest)
  | '-' :: rest => (true, rest)
  | rest => (false, rest)

/-- The digits of a whole number of base ten; a zero stands alone. -/
def decimalDigits? : List Char → Option (List Char × List Char)
  | '0' :: rest => some (['0'], rest)
  | cs => digits? 10 cs

def greatestWhole : Nat := 0x7FFFFFFFFFFFFFFF

def readInteger (cs : List Char) : Option (List Char) :=
  let based (base : Nat) (rest : List Char) : Option (List Char) :=
    (digits? base rest).bind fun (digits, rest) =>
      if valueOf base digits ≤ greatestWhole then some rest else none
  match cs with
  | '0' :: 'x' :: rest => based 16 rest
  | '0' :: 'o' :: rest => based 8 rest
  | '0' :: 'b' :: rest => based 2 rest
  | _ =>
    let (negative, rest) := signed cs
    (decimalDigits? rest).bind fun (digits, rest) =>
      let n := valueOf 10 digits
      if n ≤ greatestWhole ∨ (negative ∧ n = greatestWhole + 1) then some rest else none

/-- An exponent as a number, if there is one; an error if its digits are missing. -/
def readExponent : List Char → Option (Option Int × List Char)
  | e :: rest =>
    if e == 'e' || e == 'E' then
      let (negative, rest) := signed rest
      (digits? 10 rest).map fun (digits, rest) =>
        let n := valueOf 10 digits
        (some (if negative then -(n : Int) else n), rest)
    else some (none, e :: rest)
  | [] => some (none, [])

/-- Whether a decimal is not too large for a floating point number. -/
def isFinite (digits : List Char) (power : Int) : Bool :=
  let n := valueOf 10 digits
  if n = 0 ∨ power + digits.length < -400 then true
  else if 400 < power then false
  else (Binary64.ofScientific false n power).isSome

/-- What a reader of a number finds: nothing that concerns it, an error, or the end of the
number. -/
inductive NumberEnd where
  | other
  | refused
  | ends (rest : List Char)

/-- A floating point number: a whole number with a fraction, an exponent or both, or one of the
words for what is not finite. Positive numbers must not be too large. -/
def readFloat (cs : List Char) : NumberEnd :=
  let (negative, rest) := signed cs
  match rest with
  | 'i' :: 'n' :: 'f' :: rest => .ends rest
  | 'n' :: 'a' :: 'n' :: rest => .ends rest
  | _ =>
    match decimalDigits? rest with
    | none => .other
    | some (whole, rest) =>
      let finish (digits : List Char) (places : Nat) (required : Bool) (rest : List Char) :
          NumberEnd :=
        match readExponent rest with
        | none => .refused
        | some (none, rest) =>
          if required then .other
          else if negative || isFinite digits (-(places : Int)) then .ends rest else .refused
        | some (some exponent, rest) =>
          if negative || isFinite digits (exponent - places) then .ends rest else .refused
      match rest with
      | '.' :: rest =>
        match digits? 10 rest with
        | none => .refused
        | some (fraction, rest) => finish (whole ++ fraction) fraction.length false rest
      | rest => finish whole 0 true rest

/-- A number of exactly `count` digits within bounds. -/
def fixed? (count low high : Nat) (cs : List Char) : Option (Nat × List Char) :=
  let digits := cs.take count
  if digits.length = count ∧ digits.all Char.isDigit then
    let n := valueOf 10 digits
    if low ≤ n ∧ n ≤ high then some (n, cs.drop count) else none
  else none

def daysOf (year month : Nat) : Nat :=
  if month = 2 then
    if year % 4 = 0 ∧ (year % 100 ≠ 0 ∨ year % 400 = 0) then 29 else 28
  else if month = 4 ∨ month = 6 ∨ month = 9 ∨ month = 11 then 30
  else 31

def readDate (cs : List Char) : Option (List Char) := do
  let (year, '-' :: rest) ← fixed? 4 0 9999 cs | none
  let (month, '-' :: rest) ← fixed? 2 1 12 rest | none
  let (_, rest) ← fixed? 2 1 (daysOf year month) rest
  some rest

/-- A time of day; a minute may have a sixty-first second. -/
def readTime (cs : List Char) : Option (List Char) := do
  let (_, ':' :: rest) ← fixed? 2 0 23 cs | none
  let (_, ':' :: rest) ← fixed? 2 0 59 rest | none
  let (_, rest) ← fixed? 2 0 60 rest
  match rest with
  | '.' :: fraction =>
    let digits := fraction.takeWhile Char.isDigit
    some (if digits.isEmpty then rest else fraction.drop digits.length)
  | _ => some rest

/-- The distance of a time from universal time, which may be missing. -/
def readOffset (cs : List Char) : Option (List Char) :=
  match cs with
  | 'Z' :: rest | 'z' :: rest => some rest
  | '+' :: rest | '-' :: rest => do
    let (_, ':' :: rest) ← fixed? 2 0 23 rest | none
    let (_, rest) ← fixed? 2 0 59 rest
    some rest
  | rest => some rest

def startsTime : List Char → Bool
  | a :: b :: ':' :: _ => a.isDigit && b.isDigit
  | _ => false

def startsDate : List Char → Bool
  | a :: b :: c :: d :: '-' :: _ => [a, b, c, d].all Char.isDigit
  | _ => false

/-- A date, after which a time of day with its offset may follow a letter or a space. -/
def readMoment (cs : List Char) : Option (List Char) :=
  (readDate cs).bind fun rest =>
    match rest with
    | c :: time =>
      if (c == 'T' || c == 't' || c == ' ') && startsTime time then
        (readTime time).bind readOffset
      else some rest
    | [] => some []

end SchemaTypes.Toml
