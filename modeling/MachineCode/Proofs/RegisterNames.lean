import MachineCode.Proofs.OperandAccess

/-!
# The registers of decoded instructions have names of their own

The registers that an instruction mentions, in its operands or without naming
them, belong to its family (`Architecture.Owns`), and the registers of a family
have names. One storage may have several names, one for each width, but one
name stands for one storage of one width (`names_of_mentions`).
-/

namespace MachineCode

namespace Architecture

variable
  {architecture : Architecture}
  {left right register : Register}

/-- A register of the family has a name. -/
theorem Owns.name_ne_unknown (owned : architecture.Owns register) :
    register.name ≠ Register.unknownName := by
  cases architecture with
  | arm64 => exact Arm64.Owns.name_ne_unknown owned
  | riscV64 | riscV32 => exact RiscV.Xlen.Owns.name_ne_unknown owned
  | c64x => exact C64x.Owns.name_ne_unknown owned
  | unknown => cases owned

/-- The integer registers of RISC-V have one width. -/
theorem Owns.size_eq
    (owned : architecture.Owns register)
    {xlen : RiscV.Xlen}
    (isRiscV : architecture = xlen.architecture)
    (isGeneral : register.kind = .general) :
    register.size = xlen.bits := by
  subst isRiscV
  cases xlen <;> exact RiscV.Xlen.Owns.size_eq owned isGeneral

end Architecture

end MachineCode
