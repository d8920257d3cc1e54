import MachineCode.Detail
import MachineCode.Operation

/-!
# Opcode descriptions

What all instructions of one opcode have in common, and how a detail record
is made from it. Operands beyond the described ones are not accessed.
-/

namespace MachineCode

/-- What is known of every instruction of an opcode. -/
structure OpcodeInfo where
  mnemonic : String
  operation : Operation
  /-- How each operand is accessed, in operand order. -/
  access : List Access := []
  /-- Registers read without being named. -/
  implicitReads : List Register := []
  /-- Registers written without being named. -/
  implicitWrites : List Register := []
  groups : Groups := .empty
  /-- The condition that the opcode itself fixes. -/
  condition : Option Condition := none
deriving DecidableEq, Repr

namespace OpcodeInfo

/-- Pair each operand with its access. -/
def accessOperands : List Operand → List Access → List AccessedOperand
  | [], _ => []
  | operand :: operands, [] =>
    ⟨operand, .none⟩ :: accessOperands operands []
  | operand :: operands, access :: accesses =>
    ⟨operand, access⟩ :: accessOperands operands accesses

@[simp]
theorem accessOperands_operands
    (operands : List Operand)
    (accesses : List Access) :
    (accessOperands operands accesses).map AccessedOperand.operand =
      operands := by
  induction operands generalizing accesses with
  | nil => rfl
  | cons operand operands ih =>
    cases accesses <;> simp [accessOperands, ih]

/-- The detail record of an instruction of the opcode. -/
def detail
    (info : OpcodeInfo)
    (operands : List Operand)
    (specifics : Specifics) :
    Detail :=
  { operands := accessOperands operands info.access
    implicitReads := info.implicitReads
    implicitWrites := info.implicitWrites
    groups := info.groups
    specifics }

end OpcodeInfo

end MachineCode
