import MachineCode.Access
import MachineCode.Detail.Specifics
import MachineCode.Operand

/-!
# Detail records

The record that says what an instruction touches: each operand with the way
it is accessed, the registers read and written without being named, the
groups, and what the architecture adds.

`Detail.reads` and `Detail.writes` collect every storage location that the
instruction touches. A memory reference reads its base and its index, and
writes its base when the access updates it, whatever access the operand
itself has. Each storage location is listed once, at its first mention.
-/

namespace MachineCode

/-- An operand together with the way it is accessed. -/
structure AccessedOperand where
  operand : Operand
  access : Access
deriving DecidableEq, Repr

namespace AccessedOperand

/-- The registers that the operand causes to be read. -/
def reads (accessed : AccessedOperand) : List Register :=
  match accessed.operand with
  | .memory reference => reference.base.toList ++ reference.index.toList
  | operand => if accessed.access.reads then operand.directRegisters else []

/-- The registers that the operand causes to be written. -/
def writes (accessed : AccessedOperand) : List Register :=
  match accessed.operand with
  | .memory reference =>
    if reference.writesBase then reference.base.toList else []
  | operand => if accessed.access.writes then operand.directRegisters else []

end AccessedOperand

namespace Register

/-- Whether some register of the list is the same storage. -/
def coveredBy (register : Register) (registers : List Register) : Bool :=
  registers.any fun listed => listed.sameStorage register

/-- Add a register whose storage is not in the list yet. -/
def addNew (registers : List Register) (register : Register) :
    List Register :=
  if register.coveredBy registers then
    registers
  else
    registers ++ [register]

/-- Each storage location once, at its first mention. -/
def distinct (mentions : List Register) : List Register :=
  mentions.foldl addNew []

end Register

/-- What an instruction touches. -/
structure Detail where
  operands : List AccessedOperand := []
  /-- Registers read without being named. -/
  implicitReads : List Register := []
  /-- Registers written without being named. -/
  implicitWrites : List Register := []
  groups : Groups := .empty
  specifics : Specifics := .none
deriving DecidableEq, Repr

namespace Detail

/-- Every mention of a register that is read. -/
def readMentions (detail : Detail) : List Register :=
  detail.operands.flatMap AccessedOperand.reads ++
    detail.specifics.implicitReads ++ detail.implicitReads

/-- Every mention of a register that is written. -/
def writeMentions (detail : Detail) : List Register :=
  detail.operands.flatMap AccessedOperand.writes ++ detail.implicitWrites

/-- The storage locations read, each once. -/
def reads (detail : Detail) : List Register :=
  Register.distinct detail.readMentions

/-- The storage locations written, each once. -/
def writes (detail : Detail) : List Register :=
  Register.distinct detail.writeMentions

/-- Whether the storage of a register is read. -/
def readsRegister (detail : Detail) (register : Register) : Bool :=
  register.coveredBy detail.reads

/-- Whether the storage of a register is written. -/
def writesRegister (detail : Detail) (register : Register) : Bool :=
  register.coveredBy detail.writes

/-- The places of the operands of one kind. -/
def indicesOf (detail : Detail) (kind : OperandKind) : List Nat :=
  (List.range detail.operands.length).filter fun index =>
    (detail.operands[index]?.map fun accessed => accessed.operand.kind) =
      some kind

/-- The number of operands of one kind. -/
def operandCount (detail : Detail) (kind : OperandKind) : Nat :=
  (detail.indicesOf kind).length

/-- The place of the `n`-th operand of one kind, counted from zero. -/
def operandIndex? (detail : Detail) (kind : OperandKind) (n : Nat) :
    Option Nat :=
  (detail.indicesOf kind)[n]?

end Detail

end MachineCode
