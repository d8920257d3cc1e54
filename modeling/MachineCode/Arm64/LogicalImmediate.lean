import MachineCode.Bits

/-!
# Logical immediates

The constants of the logical instructions are patterns: a run of ones is
rotated to the right within a period of 2, 4, 8, 16, 32 or 64 bits, and the
period is repeated until the register is full. Three fields encode a pattern;
the position of the highest one in the first field, joined with the complement
of the last, is the logarithm of the period.

Some patterns that fill a register without repetition are also built by a
wide move, which puts sixteen bits at a multiple of sixteen, or the complement
of such a value.
-/

namespace MachineCode.Arm64

attribute [local instance (2000)] instPowNat

/-- Rotate the low `width` bits of a number to the right. -/
def rotateRight (width value distance : Nat) : Nat :=
  value / 2 ^ distance + value % 2 ^ distance * 2 ^ (width - distance)

/-- Several copies of an element of `width` bits, one above the other. -/
def repeated (width element : Nat) : Nat → Nat
  | 0 => 0
  | count + 1 => element + 2 ^ width * repeated width element count

/-- A rotated run of ones that is repeated over a register. -/
structure BitPattern where
  /-- The number of bits after which the pattern repeats. -/
  period : Nat
  /-- The number of ones in a period. -/
  ones : Nat
  /-- How far the run of ones is rotated to the right. -/
  rotation : Nat
deriving DecidableEq, Repr

namespace BitPattern

/-- The pattern that the fields encode, if they are not reserved. -/
def ofFields? (n immr imms : Nat) : Option BitPattern :=
  let exponent := Nat.log2 (64 * n + (63 - imms))
  let period := 2 ^ exponent
  if exponent = 0 ∨ imms % period = period - 1 then
    none
  else
    some ⟨period, imms % period + 1, immr % period⟩

/-- One period of the pattern. -/
def element (pattern : BitPattern) : Nat :=
  rotateRight pattern.period (2 ^ pattern.ones - 1) pattern.rotation

/-- The pattern over a register of `width` bits. -/
def value (pattern : BitPattern) (width : Nat) : Nat :=
  repeated pattern.period pattern.element (width / pattern.period)

/-- The pattern of a value that fills `width` bits without repetition. -/
def ofValue? (width value : Nat) : Option BitPattern :=
  let bits := value % 2 ^ width
  let ones := (List.range width).countP bits.testBit
  let half := 2 ^ (width / 2)
  if ones = 0 ∨ ones = width ∨ bits / half = bits % half then
    none
  else
    ((List.range width).map (BitPattern.mk width ones)).find? fun pattern =>
      pattern.element = bits

/-- Whether the ones, or the zeros, lie within sixteen aligned bits. -/
def fitsWideMove (pattern : BitPattern) : Bool :=
  if pattern.ones ≤ 16 then
    (16 - pattern.rotation % 16) % 16 ≤ 16 - pattern.ones
  else
    pattern.period ≤ pattern.ones + 14 &&
      pattern.rotation % 16 ≤ pattern.ones + 14 - pattern.period

end BitPattern

/-- The value of a logical immediate in a register of `width` bits. -/
def logicalImmediate? (n immr imms width : Nat) : Option Nat :=
  match BitPattern.ofFields? n immr imms with
  | none => none
  | some pattern =>
    if pattern.period ≤ width then some (pattern.value width) else none

/-- Whether a wide move, too, builds the value in a register. -/
def isWideMove (width value : Nat) : Bool :=
  match BitPattern.ofValue? width value with
  | none => false
  | some pattern => pattern.fitsWideMove

end MachineCode.Arm64
