import MachineCode.RiscV.Assembly
import MachineCode.RiscV.Encoding.Compressed
import MachineCode.RiscV.Encoding.Wide
import MachineCode.RiscV.Pseudo

/-!
# The RISC-V instruction set

The integer instructions of RV32 and RV64, with multiplication, floating-point
numbers of both precisions, control registers, and compressed words. The low
bits of the first byte tell the size of a word; sizes beyond four bytes are
known, but no instruction has them.
-/

namespace MachineCode.RiscV

/-- The size that the first byte of a word selects. -/
def wordSize? : List UInt8 → Option Nat
  | [] => none
  | byte :: _ =>
    let low := byte.toNat
    if low % 4 ≠ 3 then some 2
    else if low / 4 % 8 ≠ 7 then some 4
    else if low % 64 = 0x1f then some 6
    else if low % 128 = 0x3f then some 8
    else none

/-- Give an implicit register the width of the integer registers. -/
def atWidth (xlen : Xlen) (register : Register) : Register :=
  { register with architecture := xlen.architecture, size := xlen.bits }

/-- Give the implicit registers their width. -/
def completeDetail (xlen : Xlen) (detail : Detail) : Detail :=
  { detail with
    implicitReads := detail.implicitReads.map (atWidth xlen)
    implicitWrites := detail.implicitWrites.map (atWidth xlen) }

/-- The instruction set. -/
def isa (xlen : Xlen) : Isa where
  architecture := xlen.architecture
  widthRule := .selected 2 8 wordSize?
  table? := fun size =>
    match size with
    | 2 => some Compressed.table
    | 4 => some Wide.table
    | _ => none
  grants := fun number features =>
    match Requirement.ofId? number with
    | some requirement => requirement.met xlen features
    | none => false
  readOperands := fun number word =>
    match Format.ofId? number with
    | some format => format.read xlen word
    | none => .error (.unknownFormat number)
  info? := fun number => (Opcode.ofId? number).map Opcode.info
  aliases := pseudos
  render := render
  skipSize := fun features => if features.has .riscVCompressed then 2 else 4
  completeDetail := completeDetail xlen

end MachineCode.RiscV
