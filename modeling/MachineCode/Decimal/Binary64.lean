import MachineCode.Bits

/-!
# Binary floating-point numbers

A double-precision number is kept as its 64-bit pattern, so that every value
has one representation and arithmetic on it is exact. A finite number is
`significand * 2 ^ exponent`, with a sign.

Comparison follows the standard: no value that is not a number agrees with
anything, and the two zeros agree with each other.
-/

namespace MachineCode

attribute [local instance (2000)] instPowNat

/-- A double-precision number, as its bit pattern. -/
structure Binary64 where
  bits : BitVec 64
deriving DecidableEq, Repr

namespace Binary64

/-- The sign bit. -/
def isNegative (value : Binary64) : Bool :=
  value.bits.msb

/-- The biased exponent field. -/
def exponentField (value : Binary64) : Nat :=
  bitField value.bits.toNat 52 11

/-- The fraction field. -/
def fraction (value : Binary64) : Nat :=
  bitField value.bits.toNat 0 52

/-- Whether the pattern is not a number. -/
def isNaN (value : Binary64) : Bool :=
  value.exponentField = 2047 && value.fraction ≠ 0

/-- Whether the pattern is an infinity. -/
def isInfinite (value : Binary64) : Bool :=
  value.exponentField = 2047 && value.fraction = 0

/-- Whether the pattern is one of the two zeros. -/
def isZero (value : Binary64) : Bool :=
  value.exponentField = 0 && value.fraction = 0

/-- The whole-number significand of a finite value. -/
def significand (value : Binary64) : Nat :=
  if value.exponentField = 0 then
    value.fraction
  else
    2 ^ (52 : Nat) + value.fraction

/-- The power of two that scales the significand of a finite value. -/
def exponent (value : Binary64) : Int :=
  (max value.exponentField 1 : Nat) - 1075

/-- Equality of the numbers that two patterns stand for. -/
def agrees (left right : Binary64) : Bool :=
  !left.isNaN && !right.isNaN &&
    (left = right || (left.isZero && right.isZero))

/-- The pattern with the given fields. -/
def ofFields (negative : Bool) (exponentField fraction : Nat) : Binary64 :=
  ⟨BitVec.ofNat 64
    (negative.toNat * 2 ^ (63 : Nat) + exponentField * 2 ^ (52 : Nat) +
      fraction)⟩

end Binary64

end MachineCode
