import MachineCode.Arm64.Branch
import MachineCode.Arm64.Register

/-!
# Formats with registers only

Data processing with register operands. The destination stands at bit 0, the
first source at bit 5, the second at bit 16 and a third at bit 10; bit 31
tells whether general registers are wide.
-/

namespace MachineCode.Arm64

/-- A register under a shift; no shift is written if nothing is shifted. -/
def shiftedOperand (source : Register) (kind amount : Nat) : Operand :=
  if kind = 0 ∧ amount = 0 then
    .register source
  else
    .shiftedRegister source ⟨.ofBits kind, amount⟩

/-- Two sources, of which the second is shifted. Sums cannot rotate. -/
def readShifted (rotates : Bool) (word : Word) : Read Reading := do
  let wide ← word.flag 31
  let kind ← word.field 22 2
  let second ← word.field 16 5
  let amount ← word.field 10 6
  let first ← readRegister (general wide) 5 word
  let destination ← readRegister (general wide) 0 word
  if !rotates && kind = 0b11 then
    throw (.reserved "shift" kind)
  if !wide && 32 ≤ amount then
    throw (.reserved "imm6" amount)
  let source ← (general wide).find second
  return reading [destination, first, shiftedOperand source kind amount]

/-- Two sources, of which a condition chooses one. -/
def readSelect (word : Word) : Read Reading := do
  let wide ← word.flag 31
  let second ← readRegister (general wide) 16 word
  let code ← word.field 12 4
  let first ← readRegister (general wide) 5 word
  let destination ← readRegister (general wide) 0 word
  let condition := conditionOfCode code
  return conditionalReading condition
    [destination, first, second, .condition condition]

/-- Two sources, or three. -/
def readSources (three : Bool) (word : Word) : Read Reading := do
  let wide ← word.flag 31
  let second ← readRegister (general wide) 16 word
  let third ← readRegister (general wide) 10 word
  let first ← readRegister (general wide) 5 word
  let destination ← readRegister (general wide) 0 word
  return reading
    ([destination, first, second] ++ if three then [third] else [])

/-- The floating-point registers that the word works on. -/
def readPrecision (word : Word) : Read RegisterFile := do
  floatsOfType (← word.field 22 2)

/-- A floating-point constant. -/
def readFloatConstant (word : Word) : Read Reading := do
  let file ← readPrecision word
  let constant ← word.field 13 8
  let destination ← readRegister file 0 word
  return reading [destination, .float (.ofImmediate8 constant)]

/-- Floating-point arithmetic with two sources. -/
def readFloat (word : Word) : Read Reading := do
  let file ← readPrecision word
  let second ← readRegister file 16 word
  let first ← readRegister file 5 word
  let destination ← readRegister file 0 word
  return reading [destination, first, second]

end MachineCode.Arm64
