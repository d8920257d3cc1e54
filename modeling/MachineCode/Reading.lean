import MachineCode.Detail.Specifics
import MachineCode.Error
import MachineCode.Operand
import MachineCode.Register.File
import MachineCode.Word

/-!
# Reading operands

The ways in which operand formats read a word: fields and flags, registers by
their number in a file, lists of consecutive registers that wrap around at the
end of the file, even and odd pairs, values that select one of several modes,
and the eight-bit floating-point immediate. A read that has no result ends
with an `OperandError`.
-/

namespace MachineCode

attribute [local instance (2000)] instPowNat

/-- The operands of a word, as its format reads them. -/
structure Reading where
  operands : List Operand := []
  specifics : Specifics := .none
  /-- Whether the encoding is accepted although it should not be used. -/
  doubtful : Bool := false
deriving DecidableEq, Repr

/-- The result of a read. -/
abbrev Read (α : Type) :=
  Except OperandError α

namespace Word

/-- The `length` bits from bit `start` upwards. -/
def field (word : Word) (start length : Nat) : Read Nat :=
  match word.field? start length with
  | some value => .ok value
  | none => .error (.fieldOutOfRange start length)

/-- One bit. -/
def flag (word : Word) (position : Nat) : Read Bool :=
  match word.field position 1 with
  | .ok value => .ok (decide (value = 1))
  | .error error => .error error

/-- The signed reading of a field. -/
def signedField (word : Word) (start length : Nat) : Read Int :=
  match word.field start length with
  | .ok value => .ok (signExtend value length)
  | .error error => .error error

theorem field_eq_ok
    {word : Word}
    {start length : Nat}
    (nonempty : length ≠ 0)
    (inside : start + length ≤ word.width) :
    word.field start length = .ok (bitField word.value start length) := by
  simp [field, field?_eq_some nonempty inside]

end Word

namespace RegisterFile

/-- The register behind an encoded number. -/
def find (file : RegisterFile) (number : Nat) : Read Register :=
  match file.get? number with
  | some register => .ok register
  | none => .error (.invalidRegister file.name number)

/--
The registers from number `first` on; after the last place of the file the
first one follows. An empty file has no list, not even an empty one.
-/
def consecutive (file : RegisterFile) (first count : Nat) :
    Read RegisterList :=
  if file.size = 0 then
    .error (.invalidRegister file.name first)
  else
    match (List.range count).mapM fun index =>
      file.find ((first + index) % file.size) with
    | .ok registers => .ok { registers }
    | .error error => .error error

/-- The pair that starts at an even number, its odd half first. -/
def pair (file : RegisterFile) (number : Nat) : Read RegisterList :=
  if number % 2 ≠ 0 then
    .error (.oddRegisterPair number)
  else
    match file.find number with
    | .error error => .error error
    | .ok low =>
      match file.find (number + 1) with
      | .error error => .error error
      | .ok high => .ok { registers := [high, low], style := .pair }

end RegisterFile

/-- The mode at a place of a list; a missing mode is a reserved value. -/
def selectMode {α : Type} (modes : List (Option α)) (mode : Nat)
    (field : String) : Read α :=
  match modes[mode]?.join with
  | some selected => .ok selected
  | none => .error (.reserved field mode)

/--
The number that an eight-bit immediate stands for: a sign bit, three bits of
exponent around one, and four bits of fraction.
-/
def Binary64.ofImmediate8 (immediate : Nat) : Binary64 :=
  let negative := bitField immediate 7 1 = 1
  let low := bitField immediate 4 2
  let exponent := if bitField immediate 6 1 = 0 then low + 1024 else low + 1020
  .ofFields negative exponent (bitField immediate 0 4 * 2 ^ (48 : Nat))

end MachineCode
