import MachineCode.Arm64.Register

/-!
# Formats of loads and stores

The base of a memory reference stands at bit 5 and may be the stack pointer;
the transferred register stands at bit 0. A constant offset is counted in
units of the access, or in bytes where the base is updated. An update of a
base that is transferred too is doubtful, and so is a pair that loads one
register twice.
-/

namespace MachineCode.Arm64

attribute [local instance (2000)] instPowNat

/-- The register of the base. -/
def readBase (word : Word) : Read Register := do
  (generalOrStack true).find (← word.field 5 5)

/-- The registers that an access of a size transfers. -/
def transferred (size operation : Nat) : RegisterFile :=
  general (size = 0b11 || (size = 0b10 && operation = 0b10))

/-- A reading that updates its base if the reference does. -/
def transfer (data : List Operand) (reference : MemoryReference)
    (doubtful : Bool) : Reading :=
  { operands := data ++ [.memory reference]
    specifics := .arm64 { writesBase := reference.writesBase }
    doubtful }

/-- A register that is loaded from near the instruction. -/
def readLiteral (word : Word) : Read Reading := do
  let size ← word.field 30 2
  let distance ← word.field 5 19
  let data ← readRegister (general (size ≠ 0)) 0 word
  return reading [data, .relativeField distance 19 4 word.address 0]

/-- A register, and memory at an unsigned offset. -/
def readUnsignedOffset (word : Word) : Read Reading := do
  let size ← word.field 30 2
  let operation ← word.field 22 2
  let offset ← word.field 10 12
  let base ← readBase word
  let data ← readRegister (transferred size operation) 0 word
  let reference : MemoryReference :=
    { base := some base
      displacement := offset * 2 ^ size
      size := 2 ^ size }
  return transfer [data] reference false

/-- A register, and memory at a signed offset that updates the base. -/
def readIndexed (word : Word) : Read Reading := do
  let size ← word.field 30 2
  let operation ← word.field 22 2
  let offset ← word.signedField 12 9
  let mode ← word.field 10 2
  let baseNumber ← word.field 5 5
  let dataNumber ← word.field 0 5
  let base ← (generalOrStack true).find baseNumber
  let data ← (transferred size operation).find dataNumber
  let reference : MemoryReference :=
    { base := some base
      displacement := offset
      size := 2 ^ size
      mode := if mode = 0b11 then .preIndex else .postIndex }
  return transfer [.register data] reference
    (baseNumber ≠ 31 && baseNumber = dataNumber)

/-- How an index is widened, and whether it is a wide register. -/
def indexExtension? (option : Nat) : Option (Extension × Bool) :=
  match option with
  | 0b010 => some (.uxtw, false)
  | 0b011 => some (.lsl, true)
  | 0b110 => some (.sxtw, false)
  | 0b111 => some (.sxtx, true)
  | _ => none

/-- A register, and memory at a register offset. -/
def readRegisterOffset (word : Word) : Read Reading := do
  let size ← word.field 30 2
  let operation ← word.field 22 2
  let indexNumber ← word.field 16 5
  let option ← word.field 13 3
  let scaled ← word.flag 12
  let base ← readBase word
  let data ← readRegister (transferred size operation) 0 word
  match indexExtension? option with
  | none => throw (.reserved "option" option)
  | some (extension, wide) =>
    let index ← (general wide).find indexNumber
    let reference : MemoryReference :=
      { base := some base
        index := some index
        scale := if scaled then 2 ^ size else 1
        size := 2 ^ size
        extension := some extension }
    return transfer [data] reference false

/-- How a pair updates its base. -/
def pairMode (field : Nat) : IndexMode :=
  match field with
  | 0b01 => .postIndex
  | 0b11 => .preIndex
  | _ => .offset

/-- Two registers, and the memory that holds both. -/
def readPair (word : Word) : Read Reading := do
  let size ← word.field 30 2
  if size % 2 = 1 then
    throw (.reserved "opc" size)
  let wide : Bool := size = 0b10
  let bytes : Nat := if wide then 8 else 4
  let mode := pairMode (← word.field 23 2)
  let load ← word.flag 22
  let offset ← word.signedField 15 7
  let secondNumber ← word.field 10 5
  let baseNumber ← word.field 5 5
  let firstNumber ← word.field 0 5
  let base ← (generalOrStack true).find baseNumber
  let first ← (general wide).find firstNumber
  let second ← (general wide).find secondNumber
  let reference : MemoryReference :=
    { base := some base
      displacement := offset * bytes
      size := 2 * bytes
      mode }
  let loadsTwice := load && firstNumber = secondNumber
  let updatesData :=
    reference.writesBase && baseNumber ≠ 31 &&
      (baseNumber = firstNumber || baseNumber = secondNumber)
  return transfer [.register first, .register second] reference
    (loadsTwice || updatesData)

/-- A register, and memory that is used exclusively or in order. -/
def readExclusive (word : Word) : Read Reading := do
  let wide ← word.flag 30
  let _ ← word.field 16 5
  let base ← readBase word
  let data ← readRegister (general wide) 0 word
  return transfer [data]
    { base := some base, size := if wide then 8 else 4 } false

/-- As `readExclusive`, after a register for the outcome of the store. -/
def readExclusiveStore (word : Word) : Read Reading := do
  let wide ← word.flag 30
  let outcome ← readRegister (general false) 16 word
  let base ← readBase word
  let data ← readRegister (general wide) 0 word
  return transfer [outcome, data]
    { base := some base, size := if wide then 8 else 4 } false

/-- The number of vector registers that are transferred. -/
def structureCount? (field : Nat) : Option Nat :=
  match field with
  | 0b0111 => some 1
  | 0b1010 => some 2
  | 0b0110 => some 3
  | 0b0010 => some 4
  | _ => none

/-- The elements of whole vector registers, or of their lower halves. -/
def arrangementOf (size : Nat) (whole : Bool) : VectorArrangement :=
  match size, whole with
  | 0b00, false => .b8
  | 0b00, true => .b16
  | 0b01, false => .h4
  | 0b01, true => .h8
  | 0b10, false => .s2
  | 0b10, true => .s4
  | _, false => .d1
  | _, true => .d2

/-- The memory behind a list of vector registers. -/
def structureReference (base : Register) (bytes : Nat) : MemoryReference :=
  { base := some base, size := bytes }

/-- The same memory, updating the base by its size or by a register. -/
def updatingReference (base : Register) (bytes indexNumber : Nat) :
    Read MemoryReference := do
  let reference := structureReference base bytes
  if indexNumber = 31 then
    return { reference with displacement := bytes, mode := .postIndex }
  else
    let index ← (general true).find indexNumber
    return { reference with index := some index, mode := .postIndex }

/-- Consecutive vector registers, and the memory that holds them. -/
def readStructures (updates : Bool) (word : Word) : Read Reading := do
  let whole ← word.flag 30
  let indexNumber ← word.field 16 5
  let operation ← word.field 12 4
  let size ← word.field 10 2
  let base ← readBase word
  let first ← word.field 0 5
  match structureCount? operation with
  | none => throw (.reserved "opcode" operation)
  | some count =>
    let list ← vectors.consecutive first count
    let arranged := { list with arrangement := arrangementOf size whole }
    let bytes := count * if whole then 16 else 8
    let reference ←
      if updates then updatingReference base bytes indexNumber
      else pure (structureReference base bytes)
    return transfer [.registers arranged] reference false

end MachineCode.Arm64
