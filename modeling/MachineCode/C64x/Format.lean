import MachineCode.C64x.Arithmetic
import MachineCode.C64x.Memory

/-!
# C64x operand formats

The operand formats that the decode table names, numbered in order from zero,
and how each reads a word.
-/

namespace MachineCode.C64x

attribute [local instance (2000)] instPowNat

/-- The operand formats. -/
inductive Format where
  | nop
  | idle
  | lRegisters
  | lConstant
  | lLongDestination
  | lLongSource
  | lUnary
  | sRegisters
  | sConstant
  | sShift
  | sShiftConstant
  | moveConstant
  | moveHighConstant
  | addConstant
  | branch
  | branchRegister
  | branchReturn
  | moveToControl
  | moveFromControl
  | mRegisters
  | mConstant
  | dRegisters
  | dConstant
  | load1
  | load2
  | load4
  | load8
  | store1
  | store2
  | store4
  | store8
  | loadUnaligned8
  | storeUnaligned8
  | loadFar1
  | loadFar2
  | loadFar4
  | storeFar1
  | storeFar2
  | storeFar4
deriving DecidableEq, Repr

namespace Format

/-- The number of formats. -/
def count : Nat :=
  39

/-- The number of a format. -/
def id (format : Format) : Nat :=
  format.ctorIdx

/-- The format of a number. -/
def ofId? (number : Nat) : Option Format :=
  if number < count then some (ofNat number) else none

@[simp]
theorem ofId?_id (format : Format) : ofId? format.id = some format := by
  cases format <;> rfl

/-- Read the operands of a word. -/
def read : Format → Word → Read Reading
  | .nop => readNop
  | .idle => readIdle
  | .lRegisters => readBinary .l .register
  | .lConstant => readBinary .l .signed
  | .lLongDestination => readLong false
  | .lLongSource => readLong true
  | .lUnary => readUnary
  | .sRegisters => readBinary .s .register
  | .sConstant => readBinary .s .signed
  | .sShift => readShift .register
  | .sShiftConstant => readShift .unsigned
  | .moveConstant | .addConstant =>
    readConstant fun bits => .signedField bits 16
  | .moveHighConstant =>
    readConstant fun bits => .unsigned (bits * 2 ^ (16 : Nat)) 32
  | .branch => readBranch
  | .branchRegister => readBranchRegister
  | .branchReturn => readBranchReturn
  | .moveToControl => readMoveToControl
  | .moveFromControl => readMoveFromControl
  | .mRegisters => readBinary .m .register
  | .mConstant => readBinary .m .signed
  | .dRegisters => readAddress .register
  | .dConstant => readAddress .unsigned
  | .load1 => readAccess .load 1
  | .load2 => readAccess .load 2
  | .load4 => readAccess .load 4
  | .load8 => readAccess .load 8
  | .store1 => readAccess .store 1
  | .store2 => readAccess .store 2
  | .store4 => readAccess .store 4
  | .store8 => readAccess .store 8
  | .loadUnaligned8 => readUnalignedDouble .load
  | .storeUnaligned8 => readUnalignedDouble .store
  | .loadFar1 => readFar .load 1
  | .loadFar2 => readFar .load 2
  | .loadFar4 => readFar .load 4
  | .storeFar1 => readFar .store 1
  | .storeFar2 => readFar .store 2
  | .storeFar4 => readFar .store 4

end Format

end MachineCode.C64x
