import MachineCode.C64x.Slot

/-!
# Memory formats

Loads and stores on the .D units. A memory reference is a base register with
an offset that is added or subtracted; the offset is a small constant or a
register, counted in units of the scale; and the base may be updated before or
after the access. One field selects among the twelve combinations that exist.

The base is in the file of the unit's side, the data in the file of the side
whose data path is used.
-/

namespace MachineCode.C64x

/-- Whether data is loaded or stored. -/
inductive Direction where
  | load
  | store
deriving DecidableEq, Repr

/-- The operands of an access: the source first. -/
def Direction.operands (direction : Direction) (reference data : Operand) :
    List Operand :=
  match direction with
  | .load => [reference, data]
  | .store => [data, reference]

/-- One way to form an address. -/
structure AddressingMode where
  subtract : Bool
  update : IndexMode
  /-- Whether the offset is a register and no constant. -/
  registerOffset : Bool
deriving DecidableEq, Repr

/-- The ways to form an address, by the value of the mode field. -/
def addressingModes : List (Option AddressingMode) :=
  [some ⟨true, .offset, false⟩,
    some ⟨false, .offset, false⟩,
    none,
    none,
    some ⟨true, .offset, true⟩,
    some ⟨false, .offset, true⟩,
    none,
    none,
    some ⟨true, .preIndex, false⟩,
    some ⟨false, .preIndex, false⟩,
    some ⟨true, .postIndex, false⟩,
    some ⟨false, .postIndex, false⟩,
    some ⟨true, .preIndex, true⟩,
    some ⟨false, .preIndex, true⟩,
    some ⟨true, .postIndex, true⟩,
    some ⟨false, .postIndex, true⟩]

/-- The reference that a mode makes of a base and five bits of offset. -/
def AddressingMode.reference
    (mode : AddressingMode)
    (side : Nat)
    (base : Register)
    (offset size scale : Nat) :
    Read MemoryReference := do
  if mode.registerOffset then
    let index ← general side false offset
    return {
      base := some base
      index := some index
      scale
      size
      mode := mode.update
      subtract := mode.subtract }
  else
    let distance : Int := offset * scale
    return {
      base := some base
      displacement := if mode.subtract then -distance else distance
      scale
      size
      mode := mode.update
      subtract := mode.subtract }

/-- The memory reference of a word. -/
def readReference (word : Word) (side size scale : Nat) : Read Operand := do
  let mode ←
    selectMode addressingModes (← word.field 9 4) "addressing mode"
  let base ← general side false (← word.field 18 5)
  let offset ← word.field 13 5
  return .memory (← mode.reference side base offset size scale)

/-- An access of `size` bytes, with offsets counted in such units. -/
def readAccess (direction : Direction) (size : Nat) (word : Word) :
    Read Reading := do
  let side ← word.field 7 1
  let dataSide ← word.field 1 1
  let facts ←
    Slot.facts { unit := .d, side, dataSide := some dataSide } word
  let reference ← readReference word side size size
  let number ← word.field 23 5
  let data ←
    if size = 8 then
      generalPair dataSide number
    else
      Operand.register <$> general dataSide false number
  return reading facts (direction.operands reference data)

/-- An unaligned doubleword; its offset is scaled only if a bit says so. -/
def readUnalignedDouble (direction : Direction) (word : Word) :
    Read Reading := do
  let side ← word.field 7 1
  let dataSide ← word.field 1 1
  let facts ←
    Slot.facts { unit := .d, side, dataSide := some dataSide } word
  let scaled ← word.flag 23
  let reference ← readReference word side 8 (if scaled then 8 else 1)
  let data ← generalPair dataSide (2 * (← word.field 24 4))
  return reading facts (direction.operands reference data)

/-- A long constant offset from one of two registers, always on side 2. -/
def readFar (direction : Direction) (size : Nat) (word : Word) :
    Read Reading := do
  let dataSide ← word.field 1 1
  let facts ←
    Slot.facts { unit := .d, side := 1, dataSide := some dataSide } word
  let base ← general 1 false (14 + (← word.field 7 1))
  let offset ← word.field 8 15
  let data ← general dataSide false (← word.field 23 5)
  let reference : MemoryReference :=
    { base := some base, displacement := offset * size, scale := size, size }
  return reading facts (direction.operands (.memory reference) (.register data))

end MachineCode.C64x
