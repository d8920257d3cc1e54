import MachineCode.C64x.Register

/-!
# Execution slots

Every C64x instruction says under which predicate it runs, on which unit and
side, over which paths, and whether the next instruction runs at the same
time. The predicate is one of six registers, tested for zero or for nonzero;
one of the remaining patterns means that there is no predicate.
-/

namespace MachineCode.C64x

/-- The side and number of the register that a predicate field selects. -/
def predicateRegister? : Nat → Option (Nat × Nat)
  | 1 => some (1, 0)
  | 2 => some (1, 1)
  | 3 => some (1, 2)
  | 4 => some (0, 1)
  | 5 => some (0, 2)
  | 6 => some (0, 0)
  | _ => none

/-- The predicate of a word. -/
def predicate (word : Word) : Read (Option Predicate) := do
  let selected ← word.field 29 3
  let whenZero ← word.flag 28
  if selected = 0 && !whenZero then
    return none
  match predicateRegister? selected with
  | some (side, number) =>
    return some ⟨← general side false number, whenZero⟩
  | none => throw (.reserved "creg" (← word.field 28 4))

/-- What a format knows of the slot of its instructions. -/
structure Slot where
  unit : FunctionalUnit
  /-- The encoded side, if the instruction occupies a unit. -/
  side : Nat := 0
  crossed : Bool := false
  /-- The encoded side whose path carries the data of a memory access. -/
  dataSide : Option Nat := none
deriving DecidableEq, Repr

namespace Slot

/-- The written side of the unit, or 0 if there is no unit. -/
def writtenSide (slot : Slot) : Nat :=
  if slot.unit = .none then 0 else slot.side % 2 + 1

/-- The facts of a word whose slot is known. -/
def facts (slot : Slot) (word : Word) : Read C64xSpecifics := do
  let predicate ← predicate word
  let parallel ← word.flag 0
  return {
    predicate
    unit := slot.unit
    side := slot.writtenSide
    dataPath := slot.dataSide.map (· + 1)
    crossPath := slot.crossed
    parallel }

end Slot

/-- The reading of a word with the given facts and operands. -/
def reading (facts : C64xSpecifics) (operands : List Operand) : Reading :=
  { operands, specifics := .c64x facts }

end MachineCode.C64x
