import MachineCode.Decimal.Fixed
import MachineCode.Operand
import MachineCode.Register.Name
import MachineCode.Text.Hex

/-!
# Architecture-neutral operand text

The spelling of an operand where no assembly language is in force. Numbers
are hexadecimal. A negative signed immediate is written with its sign, every
other negative number by its two's complement pattern: of 128 bits for an
immediate, of 64 bits for a displacement that stands alone.
-/

namespace MachineCode

/-- A shift, as in `lsl #3`. -/
def Shift.text (shift : Shift) : String :=
  shift.kind.name ++ " #" ++ toString shift.amount

namespace Immediate

/-- The neutral spelling of an immediate. -/
def text (immediate : Immediate) : String :=
  if immediate.signed then
    Text.signedHex immediate.value
  else
    Text.hex (twosComplement immediate.value 128)

end Immediate

namespace MemoryReference

/-- The index part; it is joined by its sign when a base comes first. -/
def indexText (reference : MemoryReference) : String :=
  match reference.index with
  | none => ""
  | some index =>
    let joint :=
      if reference.base.isNone then ""
      else if reference.subtract then " - "
      else " + "
    let factor :=
      if 1 < reference.scale then "*" ++ toString reference.scale else ""
    joint ++ index.name ++ factor

/-- The constant part; it is joined by its sign when a register comes first. -/
def displacementText (reference : MemoryReference) : String :=
  let displacement := reference.displacement
  if displacement = 0 then
    ""
  else if reference.base.isNone && reference.index.isNone then
    Text.hex (twosComplement displacement 64)
  else if 0 < displacement then
    " + " ++ Text.hex displacement.natAbs
  else
    " - " ++ Text.hex displacement.natAbs

/-- The neutral spelling of a memory reference. -/
def text (reference : MemoryReference) : String :=
  let base := (reference.base.map Register.name).getD ""
  let mark :=
    match reference.mode with
    | .offset => ""
    | .preIndex => "!"
    | .postIndex => "+"
  "[" ++ base ++ reference.indexText ++ reference.displacementText ++ "]" ++
    mark

end MemoryReference

namespace RegisterList

/-- A register of a list, with the arrangement of the list. -/
def elementText (list : RegisterList) (register : Register) : String :=
  match list.arrangement with
  | some arrangement => register.name ++ "." ++ arrangement.name
  | none => register.name

/-- A pair is joined by a colon; a sequence stands in braces. -/
def text (list : RegisterList) : String :=
  match list.style with
  | .pair => ":".intercalate (list.registers.map Register.name)
  | .sequence =>
    "\x7b" ++ ", ".intercalate (list.registers.map list.elementText) ++ "\x7d"

end RegisterList

namespace Operand

/-- The neutral spelling of an operand. -/
def text : Operand → String
  | .register named => named.name
  | .immediate constant => constant.text
  | .memory reference => reference.text
  | .relative _ target => Text.hex target.toNat
  | .registers list => list.text
  | .float value => Decimal.fixed 8 value
  | .systemRegister named => named.name
  | .shiftedRegister named applied => named.name ++ ", " ++ applied.text
  | .shift amount => amount.text
  | .condition test => test.name

end Operand

end MachineCode
