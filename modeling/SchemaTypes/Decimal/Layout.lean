import SchemaTypes.Decimal.Shortest

/-! # The text of a number

Where a decimal is written with a plain point and where with an exponent is a matter of one record;
the digits are always the shortest ones.
-/

namespace SchemaTypes.Decimal

/-- How a decimal is laid out. The *point* of a decimal is the number of its digits in front of the
decimal point, negative when zeros stand between the point and the first digit. -/
structure Layout where
  /-- The least point that is written without an exponent. -/
  leastPoint : Int
  /-- The greatest point that is written without an exponent. -/
  greatestPoint : Int
  /-- What a positive exponent starts with. -/
  exponentPlus : String

/-- Numbers from `10 ^ -5` up to `10 ^ 16` are written out, others with a signed exponent. -/
def Layout.standard : Layout := ⟨-4, 16, "+"⟩

def zeros (n : Nat) : String := String.ofList (List.replicate n '0')

/-- The text of a decimal without a sign. A whole number that is written out ends in `.0`. -/
def Layout.unsigned (layout : Layout) (d : Scientific) : String :=
  let digits := (Nat.toDigits 10 d.digits)
  let text := String.ofList digits
  let count : Int := digits.length
  let point := count + d.power
  if d.digits = 0 then "0.0"
  else if layout.leastPoint ≤ point ∧ point ≤ layout.greatestPoint then
    if 0 ≤ d.power then text ++ zeros d.power.toNat ++ ".0"
    else if 0 < point then
      String.ofList (digits.take point.toNat) ++ "." ++ String.ofList (digits.drop point.toNat)
    else "0." ++ zeros (-point).toNat ++ text
  else
    let exponent := point - 1
    let sign := if 0 ≤ exponent then layout.exponentPlus else "-"
    let fraction := if digits.length = 1 then "" else "." ++ String.ofList (digits.drop 1)
    String.ofList (digits.take 1) ++ fraction ++ "e" ++ sign ++ toString exponent.natAbs

def Binary64.text (x : Binary64) : String :=
  (if x.negative then "-" else "") ++ Layout.standard.unsigned x.shortest

end SchemaTypes.Decimal
