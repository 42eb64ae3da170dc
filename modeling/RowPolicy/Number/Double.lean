/-!
# Numbers of double precision

A finite number of double precision is a sign and a magnitude. Magnitudes count the absolute values
in ascending order, so the magnitude is the bit pattern without the sign: below `2 ^ 53` it is the
value in units of `2 ^ -1074`, and each further stretch of `2 ^ 52` magnitudes doubles the unit.

All of it is exact arithmetic on `Nat`: a quotient is rounded once, to the nearest magnitude and to
the even one of two that are equally near.
-/

namespace RowPolicy

/-- How many magnitudes share a unit. -/
def Double.stretch : Nat :=
  0x10000000000000

/-- The first magnitude that is no finite number. -/
def Double.overflow : Nat :=
  0x7ff * stretch

/-- A finite number of double precision. -/
structure Double where
  negative : Bool
  magnitude : Nat
  lt_overflow : magnitude < Double.overflow
  deriving DecidableEq

namespace Double

/-- How often the unit of a magnitude is doubled. -/
def scaleOf (magnitude : Nat) : Nat :=
  magnitude / stretch - 1

/-- The value of a magnitude in its unit. -/
def mantissaOf (magnitude : Nat) : Nat :=
  magnitude - scaleOf magnitude * stretch

/-- The value of a magnitude in units of `2 ^ -1074`. -/
def units (magnitude : Nat) : Nat :=
  mantissaOf magnitude <<< scaleOf magnitude

/-- The quotient of two numbers, to the nearest whole number; a tie goes to the even one. -/
def roundDiv (num den : Nat) : Nat :=
  let q := num / den
  let r := num % den
  if 2 * r < den || (2 * r == den && q % 2 == 0) then q else q + 1

/-- The magnitude nearest to the quotient of two numbers. -/
def nearest (num den : Nat) : Nat :=
  let whole := num <<< 1074 / den
  let scale := if whole < 2 * stretch then 0 else whole.log2 - 52
  scale * stretch + roundDiv (num <<< 1074) (den <<< scale)

/-- The number nearest to a quotient, unless it is too large. -/
def ofRatio? (negative : Bool) (num den : Nat) : Option Double :=
  if h : nearest num den < overflow then some ⟨negative, nearest num den, h⟩ else none

/-- Zero with a sign. -/
def zero (negative : Bool) : Double :=
  ⟨negative, 0, by decide⟩

/-- The number nearest to `digits * 10 ^ exponent`, unless it is too large. Exponents that decide
the matter alone are not computed with. -/
def ofDecimal? (negative : Bool) (digits : Nat) (exponent : Int) : Option Double :=
  if digits = 0 then some (zero negative)
  else
    let place : Int := (Nat.toDigits 10 digits).length + exponent
    if place > 310 then none
    else if place < -330 then some (zero negative)
    else ofRatio? negative (digits * Nat.pow 10 exponent.toNat) (Nat.pow 10 (-exponent).toNat)

/-- The product with `10 ^ exponent`, rounded twice: first the power, then the product. -/
def scaleUp? (x : Double) (exponent : Nat) : Option Double :=
  ofRatio? x.negative (units x.magnitude * units (nearest (Nat.pow 10 exponent) 1))
    (1 <<< 2148)

/-- The quotient by `10 ^ exponent`, rounded twice: first the power, then the quotient. -/
def scaleDown? (x : Double) (exponent : Nat) : Option Double :=
  ofRatio? x.negative (units x.magnitude) (units (nearest (Nat.pow 10 exponent) 1))

end Double

end RowPolicy
