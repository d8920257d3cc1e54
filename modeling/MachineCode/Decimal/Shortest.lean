import MachineCode.Decimal.Fixed

/-!
# The shortest decimal that reads back

Every decimal in the rounding interval of a finite number reads back as that
number. The interval reaches halfway to the neighbouring numbers, and its ends
belong to it when the significand is even. Of the decimals in the interval one
with the fewest digits is written, and of those the nearest; an exact tie goes
up.

The search needs the coarsest grid of decimals that meets the interval. If a
multiple of a power of ten lies in the interval, so does one of the two
multiples next to the number, hence only these two are tested on each grid.

The decimal is written positionally: no exponent, and no point after a whole
number.
-/

namespace MachineCode.Decimal

attribute [local instance (2000)] instPowNat

/-- The decimal `digits * 10 ^ exponent`. -/
structure Scientific where
  digits : Nat
  exponent : Int
deriving DecidableEq, Repr

/--
A positive number and the interval of reals that round to it, as whole
numbers over a common denominator.
-/
structure Interval where
  value : Nat
  lower : Nat
  upper : Nat
  denominator : Nat
  /-- Whether the two ends belong to the interval. -/
  closed : Bool
deriving DecidableEq, Repr

namespace Interval

/--
The interval of a positive finite number. Below a power of two the
neighbouring numbers are twice as close as above it.
-/
def ofBinary64 (value : Binary64) : Interval :=
  let significand := value.significand
  let exponent := value.exponent - 2
  let scale := fun numerator => scaleUp numerator 2 exponent
  let atPowerOfTwo := value.fraction = 0 ∧ 1 < value.exponentField
  { value := scale (4 * significand)
    lower := scale (4 * significand - if atPowerOfTwo then 1 else 2)
    upper := scale (4 * significand + 2)
    denominator := 2 ^ (-exponent).toNat
    closed := significand % 2 = 0 }

/-- Whether the decimal lies in the interval. -/
def contains (interval : Interval) (decimal : Scientific) : Bool :=
  let point :=
    scaleUp (decimal.digits * interval.denominator) 10 decimal.exponent
  let unit := 10 ^ (-decimal.exponent).toNat
  if interval.closed then
    interval.lower * unit ≤ point && point ≤ interval.upper * unit
  else
    interval.lower * unit < point && point < interval.upper * unit

/-- The value divided by `10 ^ exponent`, as numerator and denominator. -/
def quotient (interval : Interval) (exponent : Int) : Nat × Nat :=
  (scaleUp interval.value 10 (-exponent),
    scaleUp interval.denominator 10 exponent)

/--
The decimal of the interval on the grid of multiples of `10 ^ exponent` that
is nearest to the value, if the grid meets the interval.
-/
def nearest? (interval : Interval) (exponent : Int) : Option Scientific :=
  let (numerator, denominator) := interval.quotient exponent
  let below : Scientific := ⟨numerator / denominator, exponent⟩
  let above : Scientific := ⟨numerator / denominator + 1, exponent⟩
  match interval.contains below, interval.contains above with
  | false, false => none
  | true, false => some below
  | false, true => some above
  | true, true =>
    if 2 * (numerator % denominator) < denominator then
      some below
    else
      some above

/-- Search finer and finer grids, at most `grids` of them. -/
def shortestFrom (interval : Interval) : Nat → Int → Scientific
  | 0, exponent =>
    ⟨(interval.quotient exponent).1 / (interval.quotient exponent).2,
      exponent⟩
  | grids + 1, exponent =>
    match interval.nearest? exponent with
    | some decimal => decimal
    | none => interval.shortestFrom grids (exponent - 1)

/-- An exponent whose power of ten is above the value. -/
def startExponent (interval : Interval) : Int :=
  (Nat.toDigits 10 (interval.value / interval.denominator)).length -
    if interval.value < interval.denominator then
      (Nat.toDigits 10 (interval.denominator / interval.value)).length - 1
    else
      0

/--
The shortest decimal of the interval. Seventeen digits always suffice to tell
two numbers apart, and the first grid is at most two places too coarse.
-/
def shortest (interval : Interval) : Scientific :=
  interval.shortestFrom 20 interval.startExponent

end Interval

/-- A decimal written positionally. -/
def positional (decimal : Scientific) : String :=
  if 0 ≤ decimal.exponent then
    toString (scaleUp decimal.digits 10 decimal.exponent)
  else
    let places := decimal.exponent.natAbs
    let digits := paddedDigits (places + 1) decimal.digits
    String.ofList (digits.toList.take (digits.length - places)) ++ "." ++
      String.ofList (digits.toList.drop (digits.length - places))

/-- The shortest text that reads back as the number. -/
def shortestText (value : Binary64) : String :=
  if value.isNaN then
    "NaN"
  else if value.isInfinite then
    sign value ++ "inf"
  else if value.isZero then
    sign value ++ "0"
  else
    sign value ++ positional (Interval.ofBinary64 value).shortest

end MachineCode.Decimal
