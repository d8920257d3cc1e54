import MachineCode.Reading

/-!
# Arm64 registers

There are thirty-one general registers, each used as 64 bits (`x`) or by its
lower 32 bits (`w`). The number 31 names the zero register where data is
meant, and the stack pointer where an address is. The 32 vector registers are
used whole, or by their lower 64, 32 or 16 bits as floating-point numbers.
-/

namespace MachineCode.Arm64

/-- The number of the register that holds return addresses. -/
def linkRegister : Nat :=
  30

/-- The number of the register that always holds zero. -/
def zeroRegister : Nat :=
  31

/-- The number of the stack pointer. -/
def stackPointer : Nat :=
  32

/-- The register of the condition flags. -/
def conditionFlags : Register :=
  ⟨.arm64, .flags, 33, 32⟩

/-- The width of the general registers, in bits. -/
def generalBits (wide : Bool) : Nat :=
  if wide then 64 else 32

/-- The general registers, and after them the register that 31 names. -/
def generalEntries (wide : Bool) (kind : RegisterClass) (last : Nat) :
    List (Option Register) :=
  RegisterFile.sequential 31 .arm64 .general 0 (generalBits wide) ++
    [some ⟨.arm64, kind, last, generalBits wide⟩]

/-- The general registers with the zero register. -/
def general (wide : Bool) : RegisterFile :=
  ⟨if wide then "x" else "w", generalEntries wide .general zeroRegister⟩

/-- The general registers with the stack pointer. -/
def generalOrStack (wide : Bool) : RegisterFile :=
  ⟨if wide then "x|sp" else "w|wsp",
    generalEntries wide .stackPointer stackPointer⟩

/-- The lower `size` bits of the vector registers. -/
def floats (name : String) (size : Nat) : RegisterFile :=
  ⟨name, RegisterFile.sequential 32 .arm64 .floatingPoint 64 size⟩

/-- The whole vector registers. -/
def vectors : RegisterFile :=
  ⟨"v", RegisterFile.sequential 32 .arm64 .vector 64 128⟩

/-- The floating-point registers of a precision; one precision is reserved. -/
def floatsOfType (precision : Nat) : Read RegisterFile :=
  match precision with
  | 0b00 => .ok (floats "s" 32)
  | 0b01 => .ok (floats "d" 64)
  | 0b11 => .ok (floats "h" 16)
  | _ => .error (.reserved "ftype" precision)

/-- The register of a file that five bits of the word name. -/
def readRegister (file : RegisterFile) (start : Nat) (word : Word) :
    Read Operand := do
  let number ← word.field start 5
  return .register (← file.find number)

/-- The reading of a word with the given operands. -/
def reading (operands : List Operand) : Reading :=
  { operands, specifics := .arm64 {} }

end MachineCode.Arm64
