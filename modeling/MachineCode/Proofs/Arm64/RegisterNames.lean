import MachineCode.Arm64.Opcode
import MachineCode.Proofs.Arm64.Operands
import MachineCode.Register.Name

/-!
# The names of Arm64 registers

The registers that instructions use (`Owns`): the general ones at both widths,
with the zero register and the stack pointer, the vector registers whole or as
floating-point numbers of three widths, and the flags. The name of such a
register tells its number and its width (`storageNamed?_name`), although one
storage has several names.
-/

namespace MachineCode.Arm64

/-- The registers of the instruction set. -/
inductive Owns : Register → Prop where
  | general (address wide : Bool) {number : Nat} (small : number < 32) :
      Owns (generalRegister address wide number)
  | float {size number : Nat} (width : size ∈ [16, 32, 64])
      (small : number < 32) :
      Owns (floatRegister size number)
  | vector {number : Nat} (small : number < 32) :
      Owns (vectorRegister number)
  | flags : Owns conditionFlags

theorem owns_returnAddress : Owns returnAddress :=
  @Owns.general false true linkRegister (by decide)

/-- The lower half of a general register is a register, too. -/
theorem Owns.narrow
    {wide : Bool}
    {number : Nat}
    (owned : Owns (generalRegister false wide number)) :
    Owns { generalRegister false wide number with size := 32 } := by
  generalize same : generalRegister false wide number = register at owned ⊢
  have isGeneral : register.kind = .general := by
    rw [← same]
    rfl
  cases owned with
  | @general address other place small =>
      have narrower :
          { generalRegister address other place with size := 32 } =
            generalRegister address false place := by
        unfold generalRegister
        split <;> rfl
      rw [narrower]
      exact .general address false small
  | float | vector | flags => cases isGeneral

/-- The number and the width of the register that has a name. -/
def storageNamed? (name : String) : Option (Nat × Nat) :=
  let index (digits : List Char) : Nat := Nat.ofDigitChars 10 digits 0
  match name.toList with
  | ['w', 'z', 'r'] => some (zeroRegister, 32)
  | ['x', 'z', 'r'] => some (zeroRegister, 64)
  | ['w', 's', 'p'] => some (stackPointer, 32)
  | ['s', 'p'] => some (stackPointer, 64)
  | ['n', 'z', 'c', 'v'] => some (conditionFlags.id, conditionFlags.size)
  | 'w' :: digits => some (index digits, 32)
  | 'x' :: digits => some (index digits, 64)
  | 'h' :: digits => some (64 + index digits, 16)
  | 's' :: digits => some (64 + index digits, 32)
  | 'd' :: digits => some (64 + index digits, 64)
  | 'v' :: digits => some (64 + index digits, 128)
  | _ => none

/-- The name of a register tells its number and its width. -/
theorem storageNamed?_name {register : Register} (owned : Owns register) :
    storageNamed? register.name = some (register.id, register.size) := by
  have each :
      (∀ address wide, ∀ number < 32,
        let register := generalRegister address wide number
        storageNamed? register.name = some (register.id, register.size)) ∧
      (∀ size ∈ [16, 32, 64], ∀ number < 32,
        let register := floatRegister size number
        storageNamed? register.name = some (register.id, register.size)) ∧
      ∀ number < 32,
        let register := vectorRegister number
        storageNamed? register.name = some (register.id, register.size) := by
    decide +kernel
  cases owned with
  | general address wide small => exact each.1 address wide _ small
  | float width small => exact each.2.1 _ width _ small
  | vector small => exact each.2.2 _ small
  | flags => decide +kernel

theorem Owns.name_ne_unknown {register : Register} (owned : Owns register) :
    register.name ≠ Register.unknownName := by
  intro unknown
  have told := storageNamed?_name owned
  rw [unknown, show storageNamed? Register.unknownName = none by decide]
    at told
  cases told

end MachineCode.Arm64
