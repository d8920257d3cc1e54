import MachineCode.Reading

/-!
# RISC-V registers

The instruction set exists for integer registers of 32 and of 64 bits. Both
have 32 integer and 32 floating-point registers; the latter always hold 64
bits. Compressed formats with three bits for a register reach the registers
from the eighth to the fifteenth only.
-/

namespace MachineCode.RiscV

/-- The width of the integer registers. -/
inductive Xlen where
  | rv32
  | rv64
deriving DecidableEq, Repr

namespace Xlen

/-- The width in bits. -/
def bits : Xlen → Nat
  | .rv32 => 32
  | .rv64 => 64

/-- The number of bits in a shift amount. -/
def shiftBits : Xlen → Nat
  | .rv32 => 5
  | .rv64 => 6

/-- The architecture. -/
def architecture : Xlen → Architecture
  | .rv32 => .riscV32
  | .rv64 => .riscV64

end Xlen

/-- The integer registers. -/
def integers (xlen : Xlen) : RegisterFile :=
  ⟨"x", RegisterFile.sequential 32 xlen.architecture .general 0 xlen.bits⟩

/-- The floating-point registers. -/
def floats (xlen : Xlen) : RegisterFile :=
  ⟨"f", RegisterFile.sequential 32 xlen.architecture .floatingPoint 64 64⟩

/-- The integer registers that three bits reach. -/
def shortIntegers (xlen : Xlen) : RegisterFile :=
  ⟨"x'", RegisterFile.sequential 8 xlen.architecture .general 8 xlen.bits⟩

/-- The floating-point registers that three bits reach. -/
def shortFloats (xlen : Xlen) : RegisterFile :=
  ⟨"f'", RegisterFile.sequential 8 xlen.architecture .floatingPoint 72 64⟩

/-- The number of the register that always holds zero. -/
def zeroRegister : Nat :=
  0

/-- The number of the register that holds return addresses. -/
def linkRegister : Nat :=
  1

/-- The number of the stack pointer. -/
def stackPointer : Nat :=
  2

end MachineCode.RiscV
