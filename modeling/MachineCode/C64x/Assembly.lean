import MachineCode.C64x.Opcode
import MachineCode.Isa
import MachineCode.Operand.Text

/-!
# C64x assembly text

An instruction is written with its predicate in brackets before the mnemonic,
then the unit with the paths it uses, the operands, and two bars if the next
instruction runs at the same time. An offset in a memory reference is counted
in units of the scale.
-/

namespace MachineCode.C64x

/-- The predicate, as in `[!b0]`. -/
def predicateText (predicate : Predicate) : String :=
  "[" ++ (if predicate.whenZero then "!" else "") ++
    predicate.register.name ++ "]"

/-- The unit with its paths, as in `.D1T2` or `.S2X`. -/
def unitText (facts : C64xSpecifics) : String :=
  if facts.unit = .none then
    ""
  else
    "." ++ facts.unit.name ++ toString facts.side ++
      (match facts.dataPath with
      | some path => "T" ++ toString path
      | none => "") ++
      (if facts.crossPath then "X" else "")

/-- The offset of a memory reference in units of its scale. -/
def offsetText (reference : MemoryReference) : String :=
  match reference.index with
  | some index => index.name
  | none =>
    toString (reference.displacement.natAbs / max reference.scale 1)

/-- A memory reference, as in `*+a4[3]` or `*b4++[1]`. -/
def referenceText (reference : MemoryReference) : String :=
  let base := (reference.base.map Register.name).getD ""
  let sign := if reference.subtract then "-" else "+"
  let offset := "[" ++ offsetText reference ++ "]"
  match reference.mode with
  | .offset => "*" ++ sign ++ base ++ offset
  | .preIndex => "*" ++ sign ++ sign ++ base ++ offset
  | .postIndex => "*" ++ base ++ sign ++ sign ++ offset

/-- An immediate, in hexadecimal as 32 bits or in decimal with its sign. -/
def immediateText (hexadecimal : Bool) (options : Options)
    (immediate : Immediate) : String :=
  if hexadecimal || (options.unsignedImmediates && immediate.value < 0) then
    Text.hex (twosComplement immediate.value 32)
  else
    toString immediate.value

/-- One operand. -/
def operandText (hexadecimal : Bool) (options : Options) : Operand → String
  | .registers list => ":".intercalate (list.registers.map Register.name)
  | .immediate immediate => immediateText hexadecimal options immediate
  | .memory reference => referenceText reference
  | operand => operand.text

/-- Join two parts of a text with a blank, unless one of them is empty. -/
def joinParts (first second : String) : String :=
  if first.isEmpty then second
  else if second.isEmpty then first
  else first ++ " " ++ second

/-- The text of a form. -/
def render (form : Form) (specifics : Specifics) (options : Options) :
    Rendering :=
  let hexadecimal := form.opcode = Opcode.mvkh.id
  let operands :=
    ", ".intercalate (form.operands.map (operandText hexadecimal options))
  match specifics with
  | .c64x facts =>
    let bars := if facts.parallel then "||" else ""
    { leading := facts.predicate.map predicateText
      operandText := joinParts (joinParts (unitText facts) operands) bars }
  | _ => { operandText := operands }

end MachineCode.C64x
