import MachineCode.Arm64.Arithmetic
import MachineCode.Arm64.Branch
import MachineCode.Arm64.Constant
import MachineCode.Arm64.Memory

/-!
# Arm64 operand formats

The operand formats that the decode table names, numbered in order from zero,
and how each reads a word.
-/

namespace MachineCode.Arm64

/-- The operand formats. -/
inductive Format where
  | nearAddress
  | addConstant
  | logicalConstant
  | wideMove
  | bitfield
  | extract
  | branch
  | conditionalBranch
  | compareBranch
  | testBranch
  | branchRegister
  | bare
  | exception
  | hint
  | fromSystem
  | toSystem
  | literal
  | pair
  | unsignedOffset
  | indexed
  | registerOffset
  | exclusive
  | exclusiveStore
  | structures
  | structuresUpdating
  | logicalRegister
  | addRegister
  | select
  | twoSources
  | threeSources
  | floatConstant
  | floatArithmetic
deriving DecidableEq, Repr

namespace Format

/-- The number of formats. -/
def count : Nat :=
  32

/-- The number of a format. -/
def id (format : Format) : Nat :=
  format.ctorIdx

/-- The format of a number. -/
def ofId? (number : Nat) : Option Format :=
  if number < count then some (ofNat number) else none

@[simp]
theorem ofId?_id (format : Format) : ofId? format.id = some format := by
  cases format <;> rfl

/-- Read the operands of a word. -/
def read : Format → Word → Read Reading
  | .nearAddress => readNearAddress
  | .addConstant => readAddConstant
  | .logicalConstant => readLogicalConstant
  | .wideMove => readWideMove
  | .bitfield => readBitfield
  | .extract => readExtract
  | .branch => readBranch
  | .conditionalBranch => readConditionalBranch
  | .compareBranch => readCompareBranch
  | .testBranch => readTestBranch
  | .branchRegister => readBranchRegister
  | .bare => fun _ => .ok (reading [])
  | .exception => readCode 16
  | .hint => readCode 7
  | .fromSystem => readFromSystem
  | .toSystem => readToSystem
  | .literal => readLiteral
  | .pair => readPair
  | .unsignedOffset => readUnsignedOffset
  | .indexed => readIndexed
  | .registerOffset => readRegisterOffset
  | .exclusive => readExclusive
  | .exclusiveStore => readExclusiveStore
  | .structures => readStructures false
  | .structuresUpdating => readStructures true
  | .logicalRegister => readShifted true
  | .addRegister => readShifted false
  | .select => readSelect
  | .twoSources => readSources false
  | .threeSources => readSources true
  | .floatConstant => readFloatConstant
  | .floatArithmetic => readFloat

end Format

end MachineCode.Arm64
