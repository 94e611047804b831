import SchemaTypes.Decimal.Binary64

/-! # Shortest decimals

The decimal with the fewest digits that rounds back to a given binary64 number; of several such
decimals the one nearest to the number, and the one with the even last digit if two are equally
near. Every comparison is made exactly, on naturals.
-/

namespace SchemaTypes.Decimal

structure Scientific where
  digits : Nat
  power : Int
deriving DecidableEq

namespace Scientific

def quotient (x : Scientific) : Nat × Nat := Binary64.scaleBy 10 x.power x.digits 1

/-- Move the zeros at the end of the digits into the power, at most `fuel` of them. -/
def withoutTrailingZeros : Nat → Scientific → Scientific
  | 0, x => x
  | fuel + 1, x =>
    if x.digits % 10 = 0 ∧ x.digits ≠ 0 then
      withoutTrailingZeros fuel ⟨x.digits / 10, x.power + 1⟩
    else x

end Scientific

/-- Whether the decimal `d` rounds to the positive number `x`: it lies between the midpoints of `x`
and its two neighbours, which belong to `x` when its mantissa is even. -/
def Binary64.roundsFrom (x : Binary64) (d : Scientific) : Bool :=
  -- Everything is counted in quarters of the last binary place of `x`.
  let isFirst := x.mantissa = Binary64.leadingBit ∧ Binary64.leastExponent < x.exponent
  let below := 4 * x.mantissa - (if isFirst then 1 else 2)
  let above := 4 * x.mantissa + 2
  let (num, den) := d.quotient
  let (num, den) := Binary64.scaleBy 2 (2 - x.exponent) num den
  if x.mantissa % 2 = 0 then below * den ≤ num && num ≤ above * den
  else below * den < num && num < above * den

/-- The nearest of the decimals with the power `power` that round to `x`, if there is one. -/
def Binary64.onGrid? (x : Binary64) (power : Int) : Option Scientific :=
  let (num, den) := x.magnitude
  let (num, den) := Binary64.scaleBy 10 (-power) num den
  let low : Scientific := ⟨num / den, power⟩
  let high : Scientific := ⟨num / den + 1, power⟩
  match low.digits != 0 && x.roundsFrom low, x.roundsFrom high with
  | true, true => some ⟨Binary64.roundQuotient num den, power⟩
  | true, false => some low
  | false, true => some high
  | false, false => none

/-- The power of ten of the first digit of `x`. -/
def Binary64.leadingPower (x : Binary64) : Int :=
  let (num, den) := x.magnitude
  let reaches (p : Int) : Bool :=
    let (num, den) := Binary64.scaleBy 10 (-p) num den
    den ≤ num
  let guess : Int := (((num.log2 : Int) - (den.log2 : Int)) * 30103).fdiv 100000
  if reaches (guess + 1) then guess + 1 else if reaches guess then guess else guess - 1

/-- The first of the grids below the leading power, at most `count` of them, that has a decimal
for `x`. -/
def Binary64.firstOnGrid? (x : Binary64) : Nat → Int → Option Scientific
  | 0, _ => none
  | count + 1, power => (x.onGrid? power).orElse fun _ => firstOnGrid? x count (power - 1)

/-- The shortest decimal for the absolute value of `x`. Seventeen digits always suffice. -/
def Binary64.shortest (x : Binary64) : Scientific :=
  if x.mantissa = 0 then ⟨0, 0⟩ else
    match x.firstOnGrid? 17 x.leadingPower with
    | some d => d.withoutTrailingZeros 17
    | none => ⟨0, 0⟩

end SchemaTypes.Decimal
