import MachineCode.Alias
import MachineCode.C64x.Opcode

/-!
# C64x idioms

The preferred spellings. An addition of zero is a move; a difference from
zero is a negation, and of a register from itself a zero; an exclusive or with
all ones is a complement.
-/

namespace MachineCode.C64x

/-- A preferred spelling of one opcode by another. -/
def idiom
    (opcode preferred : Opcode)
    (reduce : List Operand → Option (List Operand)) :
    Alias :=
  ⟨opcode.id, preferred.id, reduce⟩

/-- The destination, if two equal registers come before it. -/
def zeroOf : List Operand → Option (List Operand)
  | [.register first, .register second, destination] =>
    if first = second then some [destination] else none
  | _ => none

/--
Source and destination of an addition of zero. The zero comes first on the
.L and .S units and second on the .D units.
-/
def moveOf : List Operand → Option (List Operand)
  | [first, second, destination] =>
    if first.isConstant 0 && second.kind = .register then
      some [second, destination]
    else if second.isConstant 0 && first.kind = .register then
      some [first, destination]
    else
      none
  | _ => none

/-- The rest of the operands after a first one that is a given constant. -/
def afterConstant (value : Int) : List Operand → Option (List Operand)
  | [first, source, destination] =>
    if first.isConstant value then some [source, destination] else none
  | _ => none

/-- No operands, if the only one is one. -/
def singleCycle : List Operand → Option (List Operand)
  | [cycles] => if cycles.isConstant 1 then some [] else none
  | _ => none

/-- The preferred spellings, in the order in which they are tried. -/
def idioms : List Alias :=
  [idiom .sub .zero zeroOf,
    idiom .add .mv moveOf,
    idiom .sub .neg (afterConstant 0),
    idiom .xor .not (afterConstant (-1)),
    idiom .nop .nopOne singleCycle]

end MachineCode.C64x
