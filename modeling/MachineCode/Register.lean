import MachineCode.Architecture

/-!
# Registers

A register is known by its architecture, its class, a number within the
architecture, and the width of the access. Two registers of one architecture
with the same number are the same storage, whatever their class and width:
`w3` is the lower half of `x3`.

The numbers are laid out so that storage never collides within a family.

* Arm64: 0–30 general, 31 the zero register, 32 the stack pointer, 33 the
  flags, 64–95 the vector file.
* RISC-V: 0–31 general, 32 the program counter, 64–95 floating point.
* C64x: 0–31 file A, 32–63 file B, and control register `n` at `64 + n`.
-/

namespace MachineCode

/-- What a register is for. -/
inductive RegisterClass where
  | general
  | floatingPoint
  | vector
  | control
  | stackPointer
  | programCounter
  | flags
  | other
deriving DecidableEq, Repr

/-- A register, seen through an access of a given width. -/
structure Register where
  /-- The family that the register belongs to. -/
  architecture : Architecture
  /-- The class, which decides how a vector register is spelled. -/
  kind : RegisterClass
  /-- The number within the family. -/
  id : Nat
  /-- The width of the access in bits. -/
  size : Nat
deriving DecidableEq, Repr

namespace Register

/-- Whether two registers are the same storage, whatever the access width. -/
def sameStorage (left right : Register) : Bool :=
  left.architecture = right.architecture && left.id = right.id

theorem sameStorage_iff {left right : Register} :
    left.sameStorage right = true ↔
      left.architecture = right.architecture ∧ left.id = right.id := by
  simp [sameStorage]

@[simp]
theorem sameStorage_refl (register : Register) :
    register.sameStorage register = true := by
  simp [sameStorage]

theorem sameStorage_comm (left right : Register) :
    left.sameStorage right = right.sameStorage left := by
  simp [sameStorage, eq_comm]

end Register

end MachineCode
