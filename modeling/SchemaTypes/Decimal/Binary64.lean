/-! # Binary floating point numbers

A finite number of the format binary64 as a sign, a natural mantissa and a power of two. All
arithmetic is exact arithmetic on naturals followed by one rounding to the nearest number of the
format, the even mantissa on a tie.
-/

namespace SchemaTypes.Decimal

/-- A finite binary64 number, `± mantissa · 2 ^ exponent`. A mantissa below `2 ^ 52` occurs only
with the least exponent, so that equal numbers of one sign have equal fields. -/
structure Binary64 where
  negative : Bool
  mantissa : Nat
  exponent : Int
deriving DecidableEq

namespace Binary64

def leastExponent : Int := -1074

def greatestExponent : Int := 971

def zero (negative : Bool) : Binary64 := ⟨negative, 0, leastExponent⟩

def neg (x : Binary64) : Binary64 := { x with negative := !x.negative }

/-- The quotient `num / den` rounded to a whole number, a half to the even neighbour. -/
def roundQuotient (num den : Nat) : Nat :=
  let whole := num / den
  let twice := 2 * (num % den)
  if twice < den then whole
  else if den < twice then whole + 1
  else whole + whole % 2

/-- The quotient `num / den · base ^ e` as a quotient of naturals. -/
def scaleBy (base : Nat) (e : Int) (num den : Nat) : Nat × Nat :=
  if 0 ≤ e then (num * Nat.pow base e.toNat, den) else (num, den * Nat.pow base (-e).toNat)

/-- The least mantissa of 53 bits, `2 ^ 52`. -/
def leadingBit : Nat := 0x10000000000000

/-- The exponent with which `num / den` has a mantissa of 53 bits, or the least one. -/
def fittingExponent (num den : Nat) : Int :=
  let guess : Int := (num.log2 : Int) - (den.log2 : Int) - 52
  let (n, d) := scaleBy 2 (-guess) num den
  max leastExponent (if n < leadingBit * d then guess - 1 else guess)

/-- The number of the format nearest to `± num / den`; none if that lies beyond the largest. -/
def nearest (negative : Bool) (num den : Nat) : Option Binary64 :=
  if num = 0 then some (zero negative) else
    let e := fittingExponent num den
    let (n, d) := scaleBy 2 (-e) num den
    let m := roundQuotient n d
    let (m, e) := if m = 2 * leadingBit then (leadingBit, e + 1) else (m, e)
    if greatestExponent < e then none else some ⟨negative, m, e⟩

def ofScientific (negative : Bool) (digits : Nat) (power : Int) : Option Binary64 :=
  let (num, den) := scaleBy 10 power digits 1
  nearest negative num den

def magnitude (x : Binary64) : Nat × Nat := scaleBy 2 x.exponent x.mantissa 1

def mul (x y : Binary64) : Option Binary64 :=
  let (a, b) := x.magnitude
  let (c, d) := y.magnitude
  nearest (x.negative != y.negative) (a * c) (b * d)

/-- The quotient by a number other than zero, rounded. -/
def div (x y : Binary64) : Option Binary64 :=
  let (a, b) := x.magnitude
  let (c, d) := y.magnitude
  nearest (x.negative != y.negative) (a * d) (b * c)

end Binary64

end SchemaTypes.Decimal
