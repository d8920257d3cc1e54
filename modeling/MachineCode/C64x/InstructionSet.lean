import MachineCode.C64x.Assembly
import MachineCode.C64x.Encoding
import MachineCode.C64x.Idiom

/-!
# The C64x instruction set

A fixed-point signal processor with big-endian words of four bytes and no
optional extensions.
-/

namespace MachineCode.C64x

/-- Add the group of the functional unit. -/
def completeDetail (detail : Detail) : Detail :=
  match detail.specifics with
  | .c64x facts =>
    { detail with groups := detail.groups.insert facts.unit.group }
  | _ => detail

/-- The instruction set. -/
def isa : Isa where
  architecture := .c64x
  widthRule := .fixed 4
  table? := fun size => if size = 4 then some table else none
  grants := fun _ _ => false
  readOperands := fun number word =>
    match Format.ofId? number with
    | some format => format.read word
    | none => .error (.unknownFormat number)
  info? := fun number => (Opcode.ofId? number).map Opcode.info
  aliases := idioms
  render := render
  skipSize := fun _ => 4
  completeDetail := completeDetail

end MachineCode.C64x
