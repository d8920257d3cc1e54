import MachineCode.Feature
import MachineCode.RiscV.Format
import MachineCode.RiscV.Opcode
import MachineCode.Table.Statement

/-!
# Parts of RISC-V encodings

What the decode programs of both word sizes are written with: the
requirements that an encoding may have, and the statements that end with an
opcode.
-/

namespace MachineCode.RiscV

open Statement

/-- What an encoding may require of the processor. -/
inductive Requirement where
  | multiply
  | float
  | double
  | compressed
  | control
  /-- Integer registers of 64 bits. -/
  | rv64
deriving DecidableEq, Repr

namespace Requirement

/-- The number of requirements. -/
def count : Nat :=
  6

/-- The number of a requirement. -/
def id (requirement : Requirement) : Nat :=
  requirement.ctorIdx

/-- The requirement of a number. -/
def ofId? (number : Nat) : Option Requirement :=
  if number < count then some (ofNat number) else none

@[simp]
theorem ofId?_id (requirement : Requirement) :
    ofId? requirement.id = some requirement := by
  cases requirement <;> rfl

/-- Whether a processor meets the requirement. -/
def met (xlen : Xlen) (features : Features) : Requirement → Bool
  | .multiply => features.has .riscVMultiply
  | .float => features.has .riscVFloat
  | .double => features.has .riscVDouble
  | .compressed => features.has .riscVCompressed
  | .control => features.has .riscVCsr
  | .rv64 => xlen = .rv64

end Requirement

/-- End with an opcode. -/
def leaf (opcode : Opcode) (format : Format) : Statement :=
  Program.decode opcode.id format.id

/-- End with an opcode, expecting some bits to be zero. -/
def leafZeros (opcode : Opcode) (format : Format) (zeros : Nat) : Statement :=
  Program.decodeExpecting opcode.id format.id zeros 0

/-- Enter the body if the processor meets a requirement. -/
def requiring (requirement : Requirement) (body : List Statement) :
    Statement :=
  require requirement.id body

/-- The case of one value that ends with an opcode. -/
def row (value : Nat) (opcode : Opcode) (format : Format) : Case :=
  case value [leaf opcode format]

/-- As `row`, with a requirement. -/
def rowRequiring
    (requirement : Requirement)
    (value : Nat)
    (opcode : Opcode)
    (format : Format) :
    Case :=
  case value [requiring requirement [leaf opcode format]]

/-- Cases that share an operand format. -/
def rows (format : Format) (entries : List (Nat × Opcode)) : List Case :=
  entries.map fun (value, opcode) => row value opcode format

end MachineCode.RiscV
