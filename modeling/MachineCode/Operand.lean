import MachineCode.Bits
import MachineCode.Condition
import MachineCode.Decimal.Binary64
import MachineCode.Register

/-!
# Operands

The things an instruction works on: registers, alone, shifted or in lists;
immediates; memory references; branch targets; and the modifiers that some
assembly languages write among the operands.

`Operand.agrees` is the equality that pattern rules test. It differs from
equality of representations on floating-point values only.
-/

namespace MachineCode

/-- An integer immediate. -/
structure Immediate where
  value : Int
  /-- The width of the encoded field in bits. -/
  size : Nat
  /-- Whether the field is read as a signed number. -/
  signed : Bool
deriving DecidableEq, Repr

namespace Immediate

/-- The low 64 bits, read as an unsigned number. -/
def toUnsigned64 (immediate : Immediate) : Nat :=
  twosComplement immediate.value 64

/-- The low 64 bits, read as a signed number. -/
def toSigned64 (immediate : Immediate) : Int :=
  wrapSigned64 immediate.value

end Immediate

/-- When a memory access updates its base register, if at all. -/
inductive IndexMode where
  /-- The base is left alone. -/
  | offset
  /-- The base is updated before the access. -/
  | preIndex
  /-- The base is updated after the access. -/
  | postIndex
deriving DecidableEq, Repr

/-- How an index register is widened before it is added. -/
inductive Extension where
  | lsl
  | uxtw
  | sxtw
  | sxtx
deriving DecidableEq, Repr

/-- The name of an extension. -/
def Extension.name : Extension → String
  | .lsl => "lsl"
  | .uxtw => "uxtw"
  | .sxtw => "sxtw"
  | .sxtx => "sxtx"

/-- A reference `base ± index * scale + displacement` to memory. -/
structure MemoryReference where
  base : Option Register
  index : Option Register := none
  /-- The factor of the index, or of an encoded constant offset. -/
  scale : Nat := 1
  /-- The constant part in bytes. -/
  displacement : Int := 0
  /-- The number of bytes accessed. -/
  size : Nat
  mode : IndexMode := .offset
  /-- Whether the offset is taken away from the base. -/
  subtract : Bool := false
  extension : Option Extension := none
deriving DecidableEq, Repr

/-- Whether the base register is updated. -/
def MemoryReference.writesBase (reference : MemoryReference) : Bool :=
  reference.mode ≠ .offset

/-- The shape of the elements of a vector. -/
inductive VectorArrangement where
  | b8
  | b16
  | h4
  | h8
  | s2
  | s4
  | d1
  | d2
deriving DecidableEq, Repr

/-- The name of an arrangement. -/
def VectorArrangement.name : VectorArrangement → String
  | .b8 => "8b"
  | .b16 => "16b"
  | .h4 => "4h"
  | .h8 => "8h"
  | .s2 => "2s"
  | .s4 => "4s"
  | .d1 => "1d"
  | .d2 => "2d"

/-- The two kinds of register list. -/
inductive ListStyle where
  /-- Consecutive registers, in order. -/
  | sequence
  /-- The two halves of a wide value, the high one first. -/
  | pair
deriving DecidableEq, Repr

/-- Several registers that are one operand. -/
structure RegisterList where
  registers : List Register
  arrangement : Option VectorArrangement := none
  style : ListStyle := .sequence
deriving DecidableEq, Repr

/-- A system register that is known by an encoding and a name. -/
structure SystemRegister where
  encoding : Nat
  name : String
deriving DecidableEq, Repr

/-- The direction and filling of a shift. -/
inductive ShiftKind where
  | lsl
  | lsr
  | asr
  | ror
deriving DecidableEq, Repr

namespace ShiftKind

/-- The kind that the low two bits of a field select. -/
def ofBits (bits : Nat) : ShiftKind :=
  match bits % 4 with
  | 0 => .lsl
  | 1 => .lsr
  | 2 => .asr
  | _ => .ror

/-- The name of a shift. -/
def name : ShiftKind → String
  | .lsl => "lsl"
  | .lsr => "lsr"
  | .asr => "asr"
  | .ror => "ror"

end ShiftKind

/-- A shift by a constant amount. -/
structure Shift where
  kind : ShiftKind
  amount : Nat
deriving DecidableEq, Repr

/-- One operand of an instruction. -/
inductive Operand where
  | register (register : Register)
  | immediate (immediate : Immediate)
  | memory (reference : MemoryReference)
  /-- A branch target with its distance from the instruction. -/
  | relative (offset : Int) (target : Address)
  | registers (list : RegisterList)
  /-- A floating-point immediate, expanded to double precision. -/
  | float (value : Binary64)
  | systemRegister (register : SystemRegister)
  | shiftedRegister (register : Register) (shift : Shift)
  /-- A shift that is written on its own. -/
  | shift (shift : Shift)
  | condition (condition : Condition)
deriving DecidableEq, Repr

/-- The kinds of operand. -/
inductive OperandKind where
  | register
  | immediate
  | memory
  | relative
  | registers
  | float
  | systemRegister
  | shiftedRegister
  | shift
  | condition
deriving DecidableEq, Repr

namespace Operand

/-- The kind of an operand. -/
def kind : Operand → OperandKind
  | .register _ => .register
  | .immediate _ => .immediate
  | .memory _ => .memory
  | .relative _ _ => .relative
  | .registers _ => .registers
  | .float _ => .float
  | .systemRegister _ => .systemRegister
  | .shiftedRegister _ _ => .shiftedRegister
  | .shift _ => .shift
  | .condition _ => .condition

/-- An immediate read as a signed number of `size` bits. -/
def signed (value : Int) (size : Nat) : Operand :=
  .immediate ⟨value, size, true⟩

/-- An immediate read as an unsigned number of `size` bits. -/
def unsigned (value size : Nat) : Operand :=
  .immediate ⟨value, size, false⟩

/-- The signed immediate in the low `bits` bits of a field. -/
def signedField (field bits : Nat) : Operand :=
  signed (signExtend field bits) bits

/-- The branch target that a field encodes. -/
def relativeField
    (raw bits : Nat)
    (scale : Int)
    (address alignment : Address) :
    Operand :=
  .relative
    (relativeOffset raw bits scale)
    (relativeTarget raw bits scale address alignment)

/-- The register, if the operand is just one. -/
def register? : Operand → Option Register
  | .register named => some named
  | _ => none

/-- The value, if the operand is an immediate. -/
def immediateValue? : Operand → Option Int
  | .immediate constant => some constant.value
  | _ => none

/-- Whether the operand is the register of a number, of any width. -/
def isRegister (operand : Operand) (number : Nat) : Bool :=
  operand.register?.map Register.id = some number

/-- Whether the operand is an immediate of a value. -/
def isConstant (operand : Operand) (value : Int) : Bool :=
  operand.immediateValue? = some value

/-- The address, if the operand is a branch target. -/
def target? : Operand → Option Address
  | .relative _ target => some target
  | _ => none

/-- The registers that the operand names outside a memory reference. -/
def directRegisters : Operand → List Register
  | .register named => [named]
  | .shiftedRegister named _ => [named]
  | .registers list => list.registers
  | _ => []

/-- Equality of what two operands stand for. -/
def agrees : Operand → Operand → Bool
  | .float left, .float right => left.agrees right
  | left, right => left = right

/-- Operands other than floating-point values agree when they are equal. -/
theorem agrees_iff_of_kind_ne_float
    {left right : Operand}
    (notFloat : left.kind ≠ .float) :
    left.agrees right = true ↔ left = right := by
  cases left <;> simp_all [agrees, kind]

/-- Whether two operand lists agree place by place. -/
def listAgrees : List Operand → List Operand → Bool
  | [], [] => true
  | left :: lefts, right :: rights =>
    left.agrees right && listAgrees lefts rights
  | _, _ => false

end Operand

end MachineCode
