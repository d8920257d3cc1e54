import MachineCode.Operand

/-!
# Arm64 system registers

A system register is known by an encoding of sixteen bits, made of five
selectors. Registers without a name of their own are written by their
selectors.
-/

namespace MachineCode.Arm64

/-- The name of a system register, if it has one. -/
def systemRegisterName? : Nat → Option String
  | 0xc000 => some "midr_el1"
  | 0xc005 => some "mpidr_el1"
  | 0xc080 => some "sctlr_el1"
  | 0xc100 => some "ttbr0_el1"
  | 0xc200 => some "spsr_el1"
  | 0xc201 => some "elr_el1"
  | 0xc210 => some "spsel"
  | 0xc212 => some "currentel"
  | 0xc290 => some "esr_el1"
  | 0xc600 => some "vbar_el1"
  | 0xc684 => some "tpidr_el1"
  | 0xd801 => some "ctr_el0"
  | 0xda10 => some "nzcv"
  | 0xda11 => some "daif"
  | 0xda20 => some "fpcr"
  | 0xda21 => some "fpsr"
  | 0xde82 => some "tpidr_el0"
  | 0xdf02 => some "cntvct_el0"
  | _ => none

/-- The spelling of a system register by its selectors. -/
def selectorText (encoding : Nat) : String :=
  "s" ++ toString (bitField encoding 14 2) ++
    "_" ++ toString (bitField encoding 11 3) ++
    "_c" ++ toString (bitField encoding 7 4) ++
    "_c" ++ toString (bitField encoding 3 4) ++
    "_" ++ toString (bitField encoding 0 3)

/-- The system register of an encoding. -/
def systemRegister (encoding : Nat) : SystemRegister :=
  ⟨encoding,
    (systemRegisterName? encoding).getD (selectorText encoding)⟩

/-- Whether the register is out of reach at the lowest exception level. -/
def isPrivileged (register : SystemRegister) : Bool :=
  bitField register.encoding 11 3 ≠ 3

end MachineCode.Arm64
