import MachineCode.Operand
import MachineCode.Text.Hex

/-!
# RISC-V control and status registers

The names of the control registers by number. A number without a name is
written in hexadecimal.
-/

namespace MachineCode.RiscV

/-- The counter of clock cycles. -/
def cycleCounter : Nat :=
  0xc00

/-- The counter of real time. -/
def timeCounter : Nat :=
  0xc01

/-- The counter of retired instructions. -/
def retiredCounter : Nat :=
  0xc02

/-- The name of a control register. -/
def controlName? : Nat → Option String
  | 0x001 => some "fflags"
  | 0x002 => some "frm"
  | 0x003 => some "fcsr"
  | 0xc00 => some "cycle"
  | 0xc01 => some "time"
  | 0xc02 => some "instret"
  | 0x100 => some "sstatus"
  | 0x104 => some "sie"
  | 0x105 => some "stvec"
  | 0x140 => some "sscratch"
  | 0x141 => some "sepc"
  | 0x142 => some "scause"
  | 0x143 => some "stval"
  | 0x144 => some "sip"
  | 0x180 => some "satp"
  | 0x300 => some "mstatus"
  | 0x301 => some "misa"
  | 0x304 => some "mie"
  | 0x305 => some "mtvec"
  | 0x340 => some "mscratch"
  | 0x341 => some "mepc"
  | 0x342 => some "mcause"
  | 0x343 => some "mtval"
  | 0x344 => some "mip"
  | 0xf14 => some "mhartid"
  | _ => none

/-- The control register of a number. -/
def controlRegister (number : Nat) : SystemRegister :=
  ⟨number, (controlName? number).getD (Text.hex number)⟩

end MachineCode.RiscV
