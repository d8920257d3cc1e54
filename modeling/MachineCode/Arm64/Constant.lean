import MachineCode.Arm64.LogicalImmediate
import MachineCode.Arm64.Register

/-!
# Formats with a constant

Data processing with a constant operand. The destination stands at bit 0 and
the source at bit 5; bit 31 tells whether the registers are wide. The patterns
that only wide registers could hold are reserved for narrow ones.
-/

namespace MachineCode.Arm64

/-- A destination and an address near the instruction, or near its page. -/
def readNearAddress (word : Word) : Read Reading := do
  let paged ← word.flag 31
  let destination ← readRegister (general true) 0 word
  let high ← word.field 5 19
  let low ← word.field 29 2
  let distance := 4 * high + low
  let target :=
    if paged then .relativeField distance 21 4096 word.address 0xfff
    else .relativeField distance 21 1 word.address 0
  return reading [destination, target]

/-- A sum with a constant; the stack pointer takes part. -/
def readAddConstant (word : Word) : Read Reading := do
  let wide ← word.flag 31
  let setsFlags ← word.flag 29
  let shifted ← word.flag 22
  let constant ← word.field 10 12
  let source ← readRegister (generalOrStack wide) 5 word
  let destination ←
    readRegister (if setsFlags then general wide else generalOrStack wide)
      0 word
  return reading
    ([destination, source, .unsigned constant 12] ++
      if shifted then [.shift ⟨.lsl, 12⟩] else [])

/--
A bitwise operation with a pattern. The stack pointer may be the destination
of those that leave the flags alone.
-/
def readLogicalConstant (word : Word) : Read Reading := do
  let wide ← word.flag 31
  let operation ← word.field 29 2
  let n ← word.field 22 1
  let immr ← word.field 16 6
  let imms ← word.field 10 6
  let source ← readRegister (general wide) 5 word
  let destination ←
    readRegister
      (if operation = 0b11 then general wide else generalOrStack wide)
      0 word
  if !wide && n = 1 then
    throw (.reserved "N" n)
  match logicalImmediate? n immr imms (generalBits wide) with
  | none => throw (.reserved "imms" imms)
  | some value =>
    return reading [destination, source, .unsigned value (generalBits wide)]

/-- Sixteen bits of a constant, and their place in the destination. -/
def readWideMove (word : Word) : Read Reading := do
  let wide ← word.flag 31
  let place ← word.field 21 2
  let constant ← word.field 5 16
  let destination ← readRegister (general wide) 0 word
  if !wide && 2 ≤ place then
    throw (.reserved "hw" place)
  return reading
    ([destination, .unsigned constant 16] ++
      if place = 0 then [] else [.shift ⟨.lsl, 16 * place⟩])

/-- A field that is rotated and masked by two constants. -/
def readBitfield (word : Word) : Read Reading := do
  let wide ← word.flag 31
  let n ← word.flag 22
  let immr ← word.field 16 6
  let imms ← word.field 10 6
  let source ← readRegister (general wide) 5 word
  let destination ← readRegister (general wide) 0 word
  if n ≠ wide then
    throw (.reserved "N" n.toNat)
  if !wide && (32 ≤ immr || 32 ≤ imms) then
    throw (.reserved "imms" (max immr imms))
  return reading
    [destination, source, .unsigned immr 6, .unsigned imms 6]

/-- A register cut out of two registers in a row. -/
def readExtract (word : Word) : Read Reading := do
  let wide ← word.flag 31
  let n ← word.flag 22
  let low ← readRegister (general wide) 16 word
  let distance ← word.field 10 6
  let high ← readRegister (general wide) 5 word
  let destination ← readRegister (general wide) 0 word
  if n ≠ wide then
    throw (.reserved "N" n.toNat)
  if !wide && 32 ≤ distance then
    throw (.reserved "imms" distance)
  return reading [destination, high, low, .unsigned distance 6]

end MachineCode.Arm64
