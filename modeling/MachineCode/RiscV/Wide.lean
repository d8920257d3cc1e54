import MachineCode.RiscV.ControlRegister
import MachineCode.RiscV.Immediate
import MachineCode.RiscV.Register

/-!
# RISC-V formats of 32-bit words

How the 32-bit formats read their operands. The destination stands at bit 7,
the first source at bit 15, and the second source at bit 20.
-/

namespace MachineCode.RiscV

attribute [local instance (2000)] instPowNat

/-- The reading of a word with the given operands. -/
def reading (operands : List Operand) : Reading :=
  { operands, specifics := .riscV none }

/-- The register of a file that five bits of the word name. -/
def readRegister (file : RegisterFile) (start : Nat) (word : Word) :
    Read Operand := do
  let number ← word.field start 5
  return .register (← file.find number)

/-- The target that scattered bits encode as a signed offset. -/
def scatteredTarget (pieces : List BitPiece) (bits : Nat) (word : Word) :
    Operand :=
  .relativeField (gather word.value pieces) bits 1 word.address 0

/-- A destination and the upper twenty bits of a constant. -/
def readUpper (xlen : Xlen) (word : Word) : Read Reading := do
  let destination ← readRegister (integers xlen) 7 word
  let upper ← word.field 12 20
  return reading [destination, .unsigned upper 20]

/-- A destination for the return address, and a target. -/
def readJump (xlen : Xlen) (word : Word) : Read Reading := do
  let link ← readRegister (integers xlen) 7 word
  return reading [link, scatteredTarget Immediate.jump 21 word]

/-- Two sources that are compared, and a target. -/
def readBranch (xlen : Xlen) (word : Word) : Read Reading := do
  let first ← readRegister (integers xlen) 15 word
  let second ← readRegister (integers xlen) 20 word
  return reading [first, second, scatteredTarget Immediate.branch 13 word]

/-- A destination, a source and a signed constant. -/
def readConstant (xlen : Xlen) (word : Word) : Read Reading := do
  let destination ← readRegister (integers xlen) 7 word
  let source ← readRegister (integers xlen) 15 word
  let constant ← word.field 20 12
  return reading [destination, source, .signedField constant 12]

/-- A destination, a source and a shift amount of `bits` bits. -/
def readShift (xlen : Xlen) (bits : Nat) (word : Word) : Read Reading := do
  let destination ← readRegister (integers xlen) 7 word
  let source ← readRegister (integers xlen) 15 word
  let amount ← word.field 20 bits
  return reading [destination, source, .unsigned amount bits]

/-- A destination and two sources of one file. -/
def readThree (file : RegisterFile) (word : Word) : Read (List Operand) := do
  let destination ← readRegister file 7 word
  let first ← readRegister file 15 word
  let second ← readRegister file 20 word
  return [destination, first, second]

/-- A destination in a file, and the memory it is loaded from. -/
def readLoad (xlen : Xlen) (file : RegisterFile) (word : Word) :
    Read Reading := do
  let size ← word.field 12 2
  let destination ← readRegister file 7 word
  let base ← (integers xlen).find (← word.field 15 5)
  let displacement ← word.signedField 20 12
  return reading
    [destination,
      .memory { base := some base, displacement, size := 2 ^ size }]

/-- A source in a file, and the memory it is stored to. -/
def readStore (xlen : Xlen) (file : RegisterFile) (word : Word) :
    Read Reading := do
  let size ← word.field 12 2
  let source ← readRegister file 20 word
  let base ← (integers xlen).find (← word.field 15 5)
  let displacement := signExtend (gather word.value Immediate.store) 12
  return reading
    [source, .memory { base := some base, displacement, size := 2 ^ size }]

/-- The two sets of accesses that a fence orders. -/
def readFence (word : Word) : Read Reading := do
  let before ← word.field 24 4
  let after ← word.field 20 4
  return reading [.unsigned before 4, .unsigned after 4]

/-- A destination, a control register and a source register. -/
def readControl (xlen : Xlen) (word : Word) : Read Reading := do
  let destination ← readRegister (integers xlen) 7 word
  let number ← word.field 20 12
  let source ← readRegister (integers xlen) 15 word
  return reading
    [destination, .systemRegister (controlRegister number), source]

/-- A destination, a control register and a constant. -/
def readControlConstant (xlen : Xlen) (word : Word) : Read Reading := do
  let destination ← readRegister (integers xlen) 7 word
  let number ← word.field 20 12
  let constant ← word.field 15 5
  return reading
    [destination, .systemRegister (controlRegister number),
      .unsigned constant 5]

/-- Floating-point arithmetic, with its rounding mode. -/
def readFloat (xlen : Xlen) (word : Word) : Read Reading := do
  let bits ← word.field 12 3
  match RoundingMode.ofBits? bits with
  | none => throw (.reserved "rounding mode" bits)
  | some mode =>
    let operands ← readThree (floats xlen) word
    return { operands, specifics := .riscV (some mode) }

/-- A destination in one file and a source in another. -/
def readMove (destinations sources : RegisterFile) (word : Word) :
    Read Reading := do
  let destination ← readRegister destinations 7 word
  let source ← readRegister sources 15 word
  return reading [destination, source]

end MachineCode.RiscV
