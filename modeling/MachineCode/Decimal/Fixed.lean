import MachineCode.Decimal.Binary64

/-!
# Decimal text with a fixed number of places

A finite number is rounded once, from its exact value, to the nearest decimal
with the given number of places; a number halfway between two goes to the one
whose last digit is even. The sign of a negative zero is kept.
-/

namespace MachineCode.Decimal

attribute [local instance (2000)] instPowNat

/-- The whole number nearest to a quotient; a half goes to the even one. -/
def roundHalfEven (numerator denominator : Nat) : Nat :=
  let quotient := numerator / denominator
  let twice := 2 * (numerator % denominator)
  if twice < denominator then
    quotient
  else if denominator < twice then
    quotient + 1
  else
    quotient + quotient % 2

/-- The numerator of a nonnegative quotient of powers of two and ten. -/
def scaleUp (value : Nat) (base : Nat) (power : Int) : Nat :=
  value * base ^ power.toNat

/-- `value * 10 ^ places`, rounded to a whole number. -/
def scaledMagnitude (value : Binary64) (places : Nat) : Nat :=
  roundHalfEven
    (scaleUp (value.significand * 10 ^ places) 2 value.exponent)
    (2 ^ (-value.exponent).toNat)

/-- A natural number in decimal digits, at least `width` of them. -/
def paddedDigits (width value : Nat) : String :=
  let digits := Nat.toDigits 10 value
  String.ofList (List.replicate (width - digits.length) '0' ++ digits)

/-- The sign of a number that is written out. -/
def sign (value : Binary64) : String :=
  if value.isNegative then "-" else ""

/-- A number with exactly `places` decimal places. -/
def fixed (places : Nat) (value : Binary64) : String :=
  if value.isNaN then
    "NaN"
  else if value.isInfinite then
    sign value ++ "inf"
  else
    let scaled := scaledMagnitude value places
    sign value ++ toString (scaled / 10 ^ places) ++ "." ++
      paddedDigits places (scaled % 10 ^ places)

end MachineCode.Decimal
