import MachineCode.Decimal.Shortest
import MachineCode.Isa
import MachineCode.Operand.Text
import MachineCode.RiscV.Opcode

/-!
# RISC-V assembly text

Operands are joined by commas. Memory is written as an offset before its base
in parentheses, upper immediates in hexadecimal, and the sets of a fence by
the letters of the accesses they order. A rounding mode is written last unless
it is the dynamic one.
-/

namespace MachineCode.RiscV

attribute [local instance (2000)] instPowNat

/-- A memory reference, as in `8(sp)`. -/
def referenceText (reference : MemoryReference) : String :=
  toString reference.displacement ++ "(" ++
    (reference.base.map Register.name).getD "" ++ ")"

/-- An immediate, in decimal, or as 64 bits where no sign is wanted. -/
def immediateText (options : Options) (immediate : Immediate) : String :=
  if options.unsignedImmediates && immediate.value < 0 then
    Text.hex immediate.toUnsigned64
  else
    toString immediate.value

/-- One operand. -/
def operandText (options : Options) : Operand → String
  | .immediate immediate => immediateText options immediate
  | .memory reference => referenceText reference
  | .float value => Decimal.shortestText value
  | .registers list => ", ".intercalate (list.registers.map Register.name)
  | .shiftedRegister register _ => register.name
  | operand => operand.text

/-- One operand of an opcode whose constants are bit patterns. -/
def upperText (options : Options) : Operand → String
  | .immediate immediate => Text.hex immediate.toUnsigned64
  | operand => operandText options operand

/-- The letters of a set of accesses, with the bit of each. -/
def accessLetters : List (Nat × String) :=
  [(3, "i"), (2, "o"), (1, "r"), (0, "w")]

/-- The set of accesses that a fence orders. -/
def fenceText (operand : Operand) : String :=
  let bits := operand.immediateValue?.getD 0
  let letters := accessLetters.filterMap fun (position, letter) =>
    if bits / 2 ^ position % 2 = 1 then some letter else none
  if letters.isEmpty then "0" else String.join letters

/-- How the operands of an opcode are written. -/
def operandTextOf (opcode : Option Opcode) (options : Options) :
    Operand → String :=
  match opcode with
  | some .fence => fenceText
  | some .lui | some .auipc | some .cLui => upperText options
  | _ => operandText options

/-- The rounding mode, unless it is taken from a control register. -/
def roundingText : Specifics → List String
  | .riscV (some .dynamic) => []
  | .riscV (some mode) => [mode.name]
  | _ => []

/-- The text of a form. -/
def render (form : Form) (specifics : Specifics) (options : Options) :
    Rendering :=
  let opcode := Opcode.ofId? form.opcode
  { operandText :=
      ", ".intercalate
        (form.operands.map (operandTextOf opcode options) ++
          roundingText specifics) }

end MachineCode.RiscV
