import MachineCode.Arm64.Assembly
import MachineCode.Arm64.Encoding
import MachineCode.Arm64.Preferred

/-!
# The Arm64 instruction set

Little-endian words of four bytes: the integer instructions, the loads and
stores of general registers and of vector structures, and scalar
floating-point arithmetic.
-/

namespace MachineCode.Arm64

/-- Whether the operand is a system register that is out of common reach. -/
def namesPrivileged : Operand → Bool
  | .systemRegister register => isPrivileged register
  | _ => false

/-- Tell whether the flags are written, and whether privilege is needed. -/
def completeDetail (detail : Detail) : Detail :=
  let specifics :=
    match detail.specifics with
    | .arm64 facts =>
      .arm64
        { facts with
          updatesFlags := detail.implicitWrites.contains conditionFlags }
    | specifics => specifics
  let privileged :=
    detail.operands.any fun accessed => namesPrivileged accessed.operand
  { detail with
    specifics
    groups :=
      if privileged then detail.groups.insert .privilege
      else detail.groups }

/-- The instruction set. -/
def isa : Isa where
  architecture := .arm64
  widthRule := .fixed 4
  table? := fun size => if size = 4 then some table else none
  grants := fun number features =>
    match Requirement.ofId? number with
    | some requirement => requirement.met features
    | none => false
  readOperands := fun number word =>
    match Format.ofId? number with
    | some format => format.read word
    | none => .error (.unknownFormat number)
  info? := fun number => (Opcode.ofId? number).map Opcode.info
  aliases := preferredForms
  render := render
  skipSize := fun _ => 4
  completeDetail := completeDetail

end MachineCode.Arm64
