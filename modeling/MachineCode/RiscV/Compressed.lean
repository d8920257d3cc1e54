import MachineCode.RiscV.Wide

/-!
# RISC-V compressed formats

How the 16-bit formats read their operands. Most name registers with three
bits, and many imply an operand: the stack pointer, or a destination that is
also the first source. Some encodings are reserved and refused; others are
hints, which are accepted but doubtful.
-/

namespace MachineCode.RiscV

/-- The fields in which compressed formats name registers. -/
structure Short where
  /-- Destination or first source, by all five bits. -/
  destination : Nat
  /-- Second source, by all five bits. -/
  source : Nat
  /-- Destination or first source, by three bits. -/
  shortDestination : Nat
  /-- Second source, by three bits. -/
  shortSource : Nat
deriving DecidableEq, Repr

/-- Read the register fields of a compressed word. -/
def Short.read (word : Word) : Read Short := do
  let destination ← word.field 7 5
  let source ← word.field 2 5
  let shortDestination ← word.field 7 3
  let shortSource ← word.field 2 3
  return { destination, source, shortDestination, shortSource }

/-- The six bits of a constant, without a sign. -/
def shortBits (word : Word) : Nat :=
  gather word.value Immediate.shortConstant

/-- The signed constant of six bits. -/
def shortConstant (word : Word) : Int :=
  signExtend (shortBits word) 6

/-- The register of a file as an operand. -/
def registerOperand (file : RegisterFile) (number : Nat) : Read Operand :=
  Operand.register <$> file.find number

/-- Memory at an offset, which has no sign, from a base register. -/
def memoryOperand
    (file : RegisterFile)
    (number : Nat)
    (pieces : List BitPiece)
    (size : Nat)
    (word : Word) :
    Read Operand := do
  let base ← file.find number
  return .memory
    { base := some base, displacement := gather word.value pieces, size }

/-- A data register, and memory at an offset from a base register. -/
def readShortAccess
    (xlen : Xlen)
    (file : RegisterFile)
    (pieces : List BitPiece)
    (size : Nat)
    (word : Word) :
    Read Reading := do
  let short ← Short.read word
  let data ← registerOperand file short.shortSource
  let memory ←
    memoryOperand (shortIntegers xlen) short.shortDestination pieces size word
  return reading [data, memory]

/-- A destination, and memory at an offset from the stack pointer. -/
def readStackLoad
    (xlen : Xlen)
    (file : RegisterFile)
    (zeroReserved : Bool)
    (pieces : List BitPiece)
    (size : Nat)
    (word : Word) :
    Read Reading := do
  let short ← Short.read word
  if zeroReserved && short.destination = 0 then
    throw (.reserved "rd" 0)
  let destination ← registerOperand file short.destination
  let memory ← memoryOperand (integers xlen) stackPointer pieces size word
  return reading [destination, memory]

/-- A source, and memory at an offset from the stack pointer. -/
def readStackStore
    (xlen : Xlen)
    (file : RegisterFile)
    (pieces : List BitPiece)
    (size : Nat)
    (word : Word) :
    Read Reading := do
  let short ← Short.read word
  let source ← registerOperand file short.source
  let memory ← memoryOperand (integers xlen) stackPointer pieces size word
  return reading [source, memory]

/-- A destination, the stack pointer, and a distance from it. -/
def readStackAddress (xlen : Xlen) (word : Word) : Read Reading := do
  let short ← Short.read word
  let destination ← registerOperand (shortIntegers xlen) short.shortSource
  let pointer ← registerOperand (integers xlen) stackPointer
  return reading
    [destination, pointer,
      .unsigned (gather word.value Immediate.stackAddress) 10]

/-- A change of the stack pointer; no change is reserved. -/
def readStackChange (xlen : Xlen) (word : Word) : Read Reading := do
  let short ← Short.read word
  let change := signExtend (gather word.value Immediate.stackChange) 10
  if change = 0 then
    throw (.reserved "nzimm" 0)
  let pointer ← registerOperand (integers xlen) short.destination
  return reading [pointer, .signed change 10]

/-- An addition of a constant; to add zero is a hint. -/
def readShortAdd (xlen : Xlen) (word : Word) : Read Reading := do
  let short ← Short.read word
  let destination ← registerOperand (integers xlen) short.destination
  return {
    reading [destination, .signed (shortConstant word) 6] with
    doubtful := shortConstant word = 0 }

/-- An addition of words; the zero register is reserved. -/
def readShortAddWord (xlen : Xlen) (word : Word) : Read Reading := do
  let short ← Short.read word
  if short.destination = 0 then
    throw (.reserved "rd" 0)
  let destination ← registerOperand (integers xlen) short.destination
  return reading [destination, .signed (shortConstant word) 6]

/-- A constant for a register; for the zero register it is a hint. -/
def readShortLoadConstant (xlen : Xlen) (word : Word) : Read Reading := do
  let short ← Short.read word
  let destination ← registerOperand (integers xlen) short.destination
  return {
    reading [destination, .signed (shortConstant word) 6] with
    doubtful := short.destination = 0 }

/--
The upper bits of a constant, given as the twenty bits of the full format.
Zero is reserved; a constant for the zero register is a hint.
-/
def readShortUpper (xlen : Xlen) (word : Word) : Read Reading := do
  let short ← Short.read word
  if shortConstant word = 0 then
    throw (.reserved "nzimm" 0)
  let destination ← registerOperand (integers xlen) short.destination
  return {
    reading
      [destination, .unsigned (twosComplement (shortConstant word) 20) 20] with
    doubtful := short.destination = 0 }

/-- A shift amount that the integer registers admit. -/
def shiftAmount (xlen : Xlen) (word : Word) : Read Nat :=
  let amount := shortBits word
  if xlen = .rv32 ∧ 31 < amount then
    .error (.reserved "shamt" amount)
  else
    .ok amount

/-- A right shift of a register; to shift by zero is a hint. -/
def readShortShift (xlen : Xlen) (word : Word) : Read Reading := do
  let short ← Short.read word
  let amount ← shiftAmount xlen word
  let destination ←
    registerOperand (shortIntegers xlen) short.shortDestination
  return {
    reading [destination, .unsigned amount 6] with
    doubtful := amount = 0 }

/-- A left shift; by zero or of the zero register it is a hint. -/
def readShortShiftLeft (xlen : Xlen) (word : Word) : Read Reading := do
  let short ← Short.read word
  let amount ← shiftAmount xlen word
  let destination ← registerOperand (integers xlen) short.destination
  return {
    reading [destination, .unsigned amount 6] with
    doubtful := short.destination = 0 || amount = 0 }

/-- A register that is combined with a constant. -/
def readShortAnd (xlen : Xlen) (word : Word) : Read Reading := do
  let short ← Short.read word
  let destination ←
    registerOperand (shortIntegers xlen) short.shortDestination
  return reading [destination, .signed (shortConstant word) 6]

/-- A register that is combined with another. -/
def readShortArithmetic (xlen : Xlen) (word : Word) : Read Reading := do
  let short ← Short.read word
  let destination ←
    registerOperand (shortIntegers xlen) short.shortDestination
  let source ← registerOperand (shortIntegers xlen) short.shortSource
  return reading [destination, source]

/-- A target. -/
def readShortJump (word : Word) : Read Reading := do
  let _ ← Short.read word
  return reading [scatteredTarget Immediate.shortJump 12 word]

/-- A register that is compared with zero, and a target. -/
def readShortBranch (xlen : Xlen) (word : Word) : Read Reading := do
  let short ← Short.read word
  let source ← registerOperand (shortIntegers xlen) short.shortDestination
  return reading [source, scatteredTarget Immediate.shortBranch 9 word]

/-- A register that holds a target; the zero register is reserved. -/
def readShortJumpRegister (xlen : Xlen) (word : Word) : Read Reading := do
  let short ← Short.read word
  if short.destination = 0 then
    throw (.reserved "rs1" 0)
  let target ← registerOperand (integers xlen) short.destination
  return reading [target]

/-- A destination and a source; the zero register as destination is a hint. -/
def readShortMove (xlen : Xlen) (word : Word) : Read Reading := do
  let short ← Short.read word
  let destination ← registerOperand (integers xlen) short.destination
  let source ← registerOperand (integers xlen) short.source
  return {
    reading [destination, source] with
    doubtful := short.destination = 0 }

end MachineCode.RiscV
