import MachineCode.Reading
import Mathlib.Algebra.Group.Nat.Defs

/-!
# Reading words of four bytes

Such a word has all the fields of its 32 bits, so a read of one does not fail.
-/

namespace MachineCode

variable {word : Word} (four : word.size = 4)
include four

theorem value_lt_of_size : word.value < 2 ^ 32 := by
  have small := word.value_lt
  rw [Word.size] at four
  rw [four] at small
  exact small

/-- A word of four bytes has every field of its 32 bits. -/
theorem field_eq_ok_of_size
    {start length : Nat}
    (nonempty : length ≠ 0)
    (inside : start + length ≤ 32) :
    word.field start length = .ok (bitField word.value start length) :=
  Word.field_eq_ok nonempty (by rw [Word.width, four]; exact inside)

theorem flag_eq_ok_of_size
    {position : Nat}
    (inside : position < 32) :
    word.flag position = .ok (word.value.testBit position) := by
  rw [Word.flag, field_eq_ok_of_size four (by decide) inside, bitField,
    Nat.pow_one, Nat.testBit_eq_decide_div_mod_eq]

theorem signedField_eq_ok_of_size
    {start length : Nat}
    (nonempty : length ≠ 0)
    (inside : start + length ≤ 32) :
    word.signedField start length =
      .ok (signExtend (bitField word.value start length) length) := by
  rw [Word.signedField, field_eq_ok_of_size four nonempty inside]

end MachineCode
