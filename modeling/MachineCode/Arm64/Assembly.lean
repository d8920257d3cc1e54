import MachineCode.Isa
import MachineCode.Operand.Text

/-!
# Arm64 assembly text

Operands are joined by commas. Constants follow a hash sign, in decimal if
they have one digit and in hexadecimal otherwise. A memory reference stands in
brackets: an offset inside them, with an exclamation mark if the base is
updated first, and behind them if it is updated afterwards.
-/

namespace MachineCode.Arm64

/-- A constant, or its 64 bits where no sign is wanted. -/
def constantText (options : Options) (value : Int) : String :=
  if options.unsignedImmediates && value < 0 then
    "#" ++ Text.hex (twosComplement value 64)
  else if value.natAbs ≤ 9 then
    "#" ++ toString value
  else
    "#" ++ Text.signedHex value

/-- The logarithm of the scale of an index; an empty scale counts as 2⁸. -/
def scaleShift (scale : Nat) : Nat :=
  ((List.range 8).find? scale.testBit).getD 8

/-- How the index of a memory reference is widened and scaled. -/
def extensionText (extension : Option Extension) (amount : Nat) : String :=
  let shift := if amount = 0 then "" else " #" ++ toString amount
  match extension with
  | none | some .lsl => if amount = 0 then "" else ", lsl" ++ shift
  | some extension => ", " ++ extension.name ++ shift

/-- A memory reference, as in `[x0, #8]!` or `[x1, w2, sxtw #3]`. -/
def referenceText (options : Options) (reference : MemoryReference) :
    String :=
  let base := (reference.base.map Register.name).getD ""
  let offset := constantText options reference.displacement
  match reference.index, reference.mode with
  | some index, .postIndex => "[" ++ base ++ "], " ++ index.name
  | some index, _ =>
    "[" ++ base ++ ", " ++ index.name ++
      extensionText reference.extension (scaleShift reference.scale) ++ "]"
  | none, .postIndex => "[" ++ base ++ "], " ++ offset
  | none, .preIndex => "[" ++ base ++ ", " ++ offset ++ "]!"
  | none, .offset =>
    if reference.displacement = 0 then
      "[" ++ base ++ "]"
    else
      "[" ++ base ++ ", " ++ offset ++ "]"

/-- One operand. -/
def operandText (options : Options) : Operand → String
  | .immediate immediate => constantText options immediate.value
  | .memory reference => referenceText options reference
  | .relative _ target => "#" ++ Text.hex target.toNat
  | .registers list => { list with style := .sequence : RegisterList }.text
  | .float value => "#" ++ Decimal.fixed 8 value
  | operand => operand.text

/-- The text of a form. -/
def render (form : Form) (_ : Specifics) (options : Options) : Rendering :=
  { operandText :=
      ", ".intercalate (form.operands.map (operandText options)) }

end MachineCode.Arm64
