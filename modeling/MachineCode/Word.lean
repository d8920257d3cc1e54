import MachineCode.Architecture
import MachineCode.Bits

/-!
# Instruction words

A word is a run of one to eight bytes read as one number, in the byte order
of the architecture, together with the address it was read from. Fields are
cut out of the number by position; a field that is empty or reaches beyond
the word does not exist.
-/

namespace MachineCode

attribute [local instance (2000)] instPowNat

/-- The number whose base-256 digits are the bytes, the lowest digit first. -/
def littleEndian : List UInt8 → Nat
  | [] => 0
  | byte :: rest => byte.toNat + 256 * littleEndian rest

theorem littleEndian_lt (bytes : List UInt8) :
    littleEndian bytes < 2 ^ (8 * bytes.length) := by
  induction bytes with
  | nil => simp [littleEndian]
  | cons byte rest ih =>
    have small : byte.toNat < 256 := byte.toNat_lt
    have step : 2 ^ (8 * (rest.length + 1)) = 256 * 2 ^ (8 * rest.length) := by
      rw [Nat.mul_add, Nat.pow_add]
      omega
    simp only [littleEndian, List.length_cons, step]
    omega

/-- The number that bytes stand for in a byte order. -/
def ByteOrder.value (order : ByteOrder) (bytes : List UInt8) : Nat :=
  match order with
  | .little => littleEndian bytes
  | .big => littleEndian bytes.reverse

theorem ByteOrder.value_lt (order : ByteOrder) (bytes : List UInt8) :
    order.value bytes < 2 ^ (8 * bytes.length) := by
  cases order with
  | little => exact littleEndian_lt bytes
  | big => simpa [value] using littleEndian_lt bytes.reverse

/-- An instruction word. -/
structure Word where
  /-- The bytes, in the order of their addresses. -/
  bytes : List UInt8
  address : Address
  /-- The number that the bytes stand for. -/
  value : Nat
  nonempty : bytes ≠ []
  value_lt : value < 2 ^ (8 * bytes.length)

namespace Word

/-- The greatest number of bytes in a word. -/
def maxSize : Nat :=
  8

/-- The word of the first `size` bytes, if there are so many. -/
def ofBytes?
    (order : ByteOrder)
    (size : Nat)
    (address : Address)
    (input : List UInt8) :
    Option Word :=
  if maxSize < size ∨ input.length < size then
    none
  else
    let bytes := input.take size
    if nonempty : bytes = [] then
      none
    else
      some
        { bytes, address
          value := order.value bytes
          nonempty
          value_lt := order.value_lt bytes }

/-- The number of bytes. -/
def size (word : Word) : Nat :=
  word.bytes.length

theorem size_pos (word : Word) : 0 < word.size :=
  List.length_pos_iff.mpr word.nonempty

/-- The number of bits. -/
def width (word : Word) : Nat :=
  8 * word.size

/-- The `length` bits from bit `start` upwards, if the word has them. -/
def field? (word : Word) (start length : Nat) : Option Nat :=
  if length = 0 ∨ word.width < start + length then
    none
  else
    some (bitField word.value start length)

/-- One bit, if the word has it. -/
def bit? (word : Word) (position : Nat) : Option Bool :=
  (word.field? position 1).map fun bit => bit = 1

theorem field?_eq_some
    {word : Word}
    {start length : Nat}
    (nonempty : length ≠ 0)
    (inside : start + length ≤ word.width) :
    word.field? start length = some (bitField word.value start length) := by
  simp [field?, nonempty, Nat.not_lt.mpr inside]

theorem field?_eq_none_iff {word : Word} {start length : Nat} :
    word.field? start length = none ↔
      length = 0 ∨ word.width < start + length := by
  simp [field?, Decidable.or_iff_not_imp_left]

end Word

end MachineCode
