/-! # Hexadecimal digits

Characters are often written by the hexadecimal digits of their number, of which upper and lower
case mean the same.
-/

namespace SchemaTypes.Text

def hexValue? (c : Char) : Option Nat :=
  if c.isDigit then some (c.toNat - 48)
  else if 'a' ≤ c ∧ c ≤ 'f' then some (c.toNat - 87)
  else if 'A' ≤ c ∧ c ≤ 'F' then some (c.toNat - 55)
  else none

def hexDigit (n : Nat) : Char :=
  if n < 10 then Char.ofNat (48 + n) else Char.ofNat (87 + n)

def hexNumber? (count : Nat) (cs : List Char) : Option Nat :=
  let digits := cs.take count
  if digits.length < count then none
  else (digits.mapM hexValue?).map fun values => values.foldl (fun n v => n * 16 + v) 0

def hexChar? (count : Nat) (cs : List Char) : Option Char :=
  (hexNumber? count cs).bind fun n =>
    if h : n.isValidChar then some (Char.ofNatAux n h) else none

def decimalValue (digits : List Char) : Nat :=
  digits.foldl (fun n c => n * 10 + (c.toNat - 48)) 0

end SchemaTypes.Text
