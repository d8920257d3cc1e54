import MachineCode.Bits
import MachineCode.Condition

/-!
# Control flow

Where control goes after an instruction.
-/

namespace MachineCode

/-- How control leaves an instruction. -/
inductive ControlFlow where
  /-- On to the next instruction. -/
  | sequential
  | branch (target : Address)
  | conditionalBranch
      (target : Address)
      (condition : Condition)
      (fallthrough : Address)
  /-- To an address that is not part of the instruction. -/
  | indirectBranch (targets : List Address)
  | call (target returnAddress : Address)
  | indirectCall (returnAddress : Address)
  | ret
  | syscall
  | halt
deriving DecidableEq, Repr

namespace ControlFlow

/-- Whether control calls a subroutine. -/
def isCall : ControlFlow → Bool
  | .call _ _ | .indirectCall _ => true
  | _ => false

/-- Whether control returns from a subroutine. -/
def isReturn : ControlFlow → Bool
  | .ret => true
  | _ => false

/-- Whether control may go anywhere but to the next instruction. -/
def isBranch : ControlFlow → Bool
  | .sequential => false
  | _ => true

/-- The target that is part of the instruction. -/
def target? : ControlFlow → Option Address
  | .branch target => some target
  | .conditionalBranch target _ _ => some target
  | .call target _ => some target
  | _ => none

end ControlFlow

end MachineCode
