import MachineCode.RiscV.Compressed

/-!
# RISC-V operand formats

The operand formats that the decode tables name, numbered in order from zero,
and how each reads a word. The formats from `stackAddress` on belong to
compressed words.
-/

namespace MachineCode.RiscV

/-- The operand formats. -/
inductive Format where
  | upper
  | jump
  | jumpRegister
  | branch
  | load
  | store
  | constant
  | shift
  | shiftWord
  | registers
  | fence
  | bare
  | control
  | controlConstant
  | floatLoad
  | floatStore
  | floatArithmetic
  | floatToInteger
  | integerToFloat
  | stackAddress
  | shortLoadWord
  | shortLoadDouble
  | shortStoreWord
  | shortStoreDouble
  | shortFloatLoadWord
  | shortFloatLoadDouble
  | shortFloatStoreWord
  | shortFloatStoreDouble
  | shortAdd
  | shortAddWord
  | shortJump
  | shortLoadConstant
  | stackChange
  | shortUpper
  | shortShift
  | shortAnd
  | shortArithmetic
  | shortBranch
  | shortShiftLeft
  | stackLoadWord
  | stackLoadDouble
  | stackFloatLoadWord
  | stackFloatLoadDouble
  | shortJumpRegister
  | shortMove
  | shortAddRegister
  | stackStoreWord
  | stackStoreDouble
  | stackFloatStoreWord
  | stackFloatStoreDouble
deriving DecidableEq, Repr

namespace Format

/-- The number of formats. -/
def count : Nat :=
  50

/-- The number of a format. -/
def id (format : Format) : Nat :=
  format.ctorIdx

/-- The format of a number. -/
def ofId? (number : Nat) : Option Format :=
  if number < count then some (ofNat number) else none

@[simp]
theorem ofId?_id (format : Format) : ofId? format.id = some format := by
  cases format <;> rfl

/-- Read the operands of a word. -/
def read (xlen : Xlen) : Format → Word → Read Reading
  | .upper => readUpper xlen
  | .jump => readJump xlen
  | .jumpRegister | .constant => readConstant xlen
  | .branch => readBranch xlen
  | .load => readLoad xlen (integers xlen)
  | .store => readStore xlen (integers xlen)
  | .shift => readShift xlen xlen.shiftBits
  | .shiftWord => readShift xlen 5
  | .registers => fun word => reading <$> readThree (integers xlen) word
  | .fence => readFence
  | .bare => fun _ => .ok (reading [])
  | .control => readControl xlen
  | .controlConstant => readControlConstant xlen
  | .floatLoad => readLoad xlen (floats xlen)
  | .floatStore => readStore xlen (floats xlen)
  | .floatArithmetic => readFloat xlen
  | .floatToInteger => readMove (integers xlen) (floats xlen)
  | .integerToFloat => readMove (floats xlen) (integers xlen)
  | .stackAddress => readStackAddress xlen
  | .shortLoadWord | .shortStoreWord =>
    readShortAccess xlen (shortIntegers xlen) Immediate.shortWord 4
  | .shortLoadDouble | .shortStoreDouble =>
    readShortAccess xlen (shortIntegers xlen) Immediate.shortDouble 8
  | .shortFloatLoadWord | .shortFloatStoreWord =>
    readShortAccess xlen (shortFloats xlen) Immediate.shortWord 4
  | .shortFloatLoadDouble | .shortFloatStoreDouble =>
    readShortAccess xlen (shortFloats xlen) Immediate.shortDouble 8
  | .shortAdd => readShortAdd xlen
  | .shortAddWord => readShortAddWord xlen
  | .shortJump => readShortJump
  | .shortLoadConstant => readShortLoadConstant xlen
  | .stackChange => readStackChange xlen
  | .shortUpper => readShortUpper xlen
  | .shortShift => readShortShift xlen
  | .shortAnd => readShortAnd xlen
  | .shortArithmetic => readShortArithmetic xlen
  | .shortBranch => readShortBranch xlen
  | .shortShiftLeft => readShortShiftLeft xlen
  | .stackLoadWord =>
    readStackLoad xlen (integers xlen) true Immediate.stackLoadWord 4
  | .stackLoadDouble =>
    readStackLoad xlen (integers xlen) true Immediate.stackLoadDouble 8
  | .stackFloatLoadWord =>
    readStackLoad xlen (floats xlen) false Immediate.stackLoadWord 4
  | .stackFloatLoadDouble =>
    readStackLoad xlen (floats xlen) false Immediate.stackLoadDouble 8
  | .shortJumpRegister => readShortJumpRegister xlen
  | .shortMove | .shortAddRegister => readShortMove xlen
  | .stackStoreWord =>
    readStackStore xlen (integers xlen) Immediate.stackStoreWord 4
  | .stackStoreDouble =>
    readStackStore xlen (integers xlen) Immediate.stackStoreDouble 8
  | .stackFloatStoreWord =>
    readStackStore xlen (floats xlen) Immediate.stackStoreWord 4
  | .stackFloatStoreDouble =>
    readStackStore xlen (floats xlen) Immediate.stackStoreDouble 8

end Format

end MachineCode.RiscV
