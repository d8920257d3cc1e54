import MachineCode.Arm64.Register
import MachineCode.Arm64.SystemRegister

/-!
# Formats of branches and of the system

Branch distances are counted in words of four bytes. A conditional branch
names its condition by a code of four bits; code fifteen is never met.
-/

namespace MachineCode.Arm64

/-- The condition of a code. -/
def conditionOfCode (code : Nat) : Condition :=
  match code % 16 with
  | 0b0000 => .equal
  | 0b0001 => .notEqual
  | 0b0010 => .aboveOrEqual
  | 0b0011 => .below
  | 0b0100 => .negative
  | 0b0101 => .nonNegative
  | 0b0110 => .overflow
  | 0b0111 => .noOverflow
  | 0b1000 => .above
  | 0b1001 => .belowOrEqual
  | 0b1010 => .greaterOrEqual
  | 0b1011 => .less
  | 0b1100 => .greater
  | 0b1101 => .lessOrEqual
  | 0b1110 => .always
  | _ => .never

/-- A reading that depends on a condition. -/
def conditionalReading (condition : Condition) (operands : List Operand) :
    Reading :=
  { operands, specifics := .arm64 { condition := some condition } }

/-- The target that a field encodes by its distance in words. -/
def readTarget (start length : Nat) (word : Word) : Read Operand := do
  let distance ← word.field start length
  return .relativeField distance length 4 word.address 0

/-- A far target. -/
def readBranch (word : Word) : Read Reading := do
  return reading [← readTarget 0 26 word]

/-- A target with its condition. -/
def readConditionalBranch (word : Word) : Read Reading := do
  let target ← readTarget 5 19 word
  let code ← word.field 0 4
  return conditionalReading (conditionOfCode code) [target]

/-- A register that is compared with zero, and a target. -/
def readCompareBranch (word : Word) : Read Reading := do
  let wide ← word.flag 31
  let target ← readTarget 5 19 word
  let source ← readRegister (general wide) 0 word
  return reading [source, target]

/-- A register, the place of the bit that is tested, and a target. -/
def readTestBranch (word : Word) : Read Reading := do
  let high ← word.field 31 1
  let low ← word.field 19 5
  let target ← readTarget 5 14 word
  let source ← readRegister (general (high = 1)) 0 word
  return reading [source, .unsigned (32 * high + low) 6, target]

/-- A register that holds the target. -/
def readBranchRegister (word : Word) : Read Reading := do
  return reading [← readRegister (general true) 5 word]

/-- A constant of `length` bits. -/
def readCode (length : Nat) (word : Word) : Read Reading := do
  let code ← word.field 5 length
  return reading [.unsigned code length]

/-- The system register that is moved, and the register it is moved by. -/
def readSystemMove (word : Word) : Read (Operand × Operand) := do
  let encoding ← word.field 5 16
  let data ← readRegister (general true) 0 word
  return (.systemRegister (systemRegister encoding), data)

/-- A move out of a system register. -/
def readFromSystem (word : Word) : Read Reading := do
  let (system, data) ← readSystemMove word
  return reading [data, system]

/-- A move into a system register. -/
def readToSystem (word : Word) : Read Reading := do
  let (system, data) ← readSystemMove word
  return reading [system, data]

end MachineCode.Arm64
