import Mathlib.Data.Nat.Bitwise

/-!
# The values of bitfield moves

A bitfield move takes some neighbouring bits of a source to another place of
the destination; `moveField` says what each bit of the result is. The
operations by which assembly programs name such moves come to the same:
extensions, shifts, and the extraction and insertion of a field.
-/

namespace MachineCode.Arm64

/-- What stands around a field that has been moved. -/
inductive Surroundings where
  | zeros
  /-- Copies of the highest bit of the field above it, and zeros below. -/
  | sign
  /-- The bits that the destination held before. -/
  | kept
deriving DecidableEq, Repr

variable {width : Nat}

/-- One bit of the register that a field is moved to. -/
def movedBit
    (around : Surroundings)
    (source old : BitVec width)
    (start length place index : Nat) :
    Bool :=
  if index < place then
    around = .kept && old.getLsbD index
  else if index < place + length then
    source.getLsbD (start + (index - place))
  else
    match around with
    | .zeros => false
    | .sign => source.getLsbD (start + length - 1)
    | .kept => old.getLsbD index

/-- The `length` bits of a source from bit `start` upwards, at a place. -/
def moveField
    (around : Surroundings)
    (source old : BitVec width)
    (start length place : Nat) :
    BitVec width :=
  .ofNat width
    (Nat.ofBits fun index : Fin width =>
      movedBit around source old start length place index)

/--
The bitfield move with two constants: the bits from `immr` to `imms` are moved
to the lowest place, or the bits up to `imms` to a place below the highest.
-/
def bitfieldMove
    (around : Surroundings)
    (source old : BitVec width)
    (immr imms : Nat) :
    BitVec width :=
  if immr ≤ imms then
    moveField around source old immr (imms - immr + 1) 0
  else
    moveField around source old 0 (imms + 1) (width - immr)

/-- A register in which the bits from a place on are replaced by a field. -/
def insertField
    {length : Nat}
    (old : BitVec width)
    (field : BitVec length)
    (place : Nat) :
    BitVec width :=
  (old &&& ~~~((BitVec.allOnes length).setWidth width <<< place)) |||
    (field.setWidth width <<< place)

section Fields

variable
  {source old : BitVec width}
  {start length place : Nat}

theorem getLsbD_moveField
    (around : Surroundings)
    {index : Nat}
    (inside : index < width) :
    (moveField around source old start length place).getLsbD index =
      movedBit around source old start length place index := by
  rw [moveField, BitVec.getLsbD_ofNat, Nat.testBit_ofBits_lt _ _ inside,
    decide_eq_true inside, Bool.true_and]

/-- Between zeros, a field is widened and shifted. -/
theorem moveField_zeros :
    moveField .zeros source old start length place =
      (source.extractLsb' start length).setWidth width <<< place := by
  apply BitVec.eq_of_getLsbD_eq
  intro index inside
  rw [getLsbD_moveField _ inside, movedBit]
  by_cases below : index < place
  · simp [below]
  have field : index - place < length ↔ index < place + length := by omega
  by_cases inField : index < place + length
  · simp [inside, below, field, inField]
  · simp [inside, below, field, inField]

/-- With copies of its sign, a field is extended and shifted. -/
theorem moveField_sign (nonempty : 0 < length) :
    moveField .sign source old start length place =
      (source.extractLsb' start length).signExtend width <<< place := by
  apply BitVec.eq_of_getLsbD_eq
  intro index inside
  rw [getLsbD_moveField _ inside, movedBit]
  by_cases below : index < place
  · simp [below]
  have field : index - place < length ↔ index < place + length := by omega
  by_cases inField : index < place + length
  · simp [BitVec.getElem_signExtend, inside, below, field, inField]
  · have highest : start + (length - 1) = start + length - 1 := by omega
    have last : length - 1 < length := by omega
    simp [BitVec.getElem_signExtend, BitVec.msb_eq_getLsbD_last, inside,
      below, field, inField, highest, last]

/-- In a register that is kept, a field is inserted. -/
theorem moveField_kept :
    moveField .kept source old start length place =
      insertField old (source.extractLsb' start length) place := by
  apply BitVec.eq_of_getLsbD_eq
  intro index inside
  rw [getLsbD_moveField _ inside, movedBit, insertField]
  by_cases below : index < place
  · simp [inside, below]
  have field : index - place < length ↔ index < place + length := by omega
  by_cases inField : index < place + length
  · simp [inside, below, field, inField]
  · simp [inside, below, field, inField]

end Fields

/-! ## Named moves -/

section Moves

variable
  {source old : BitVec width}
  {immr imms : Nat}

/-- A field without a place is moved to the lowest one. -/
theorem bitfieldMove_of_le
    (around : Surroundings)
    (extracts : immr ≤ imms) :
    bitfieldMove around source old immr imms =
      moveField around source old immr (imms - immr + 1) 0 :=
  if_pos extracts

/-- The low bits are moved to a higher place. -/
theorem bitfieldMove_of_lt
    (around : Surroundings)
    (inserts : imms < immr) :
    bitfieldMove around source old immr imms =
      moveField around source old 0 (imms + 1) (width - immr) :=
  if_neg (Nat.not_le.mpr inserts)

/-- The low bits of a register are a field of it. -/
theorem extractLsb'_zero (length : Nat) :
    source.extractLsb' 0 length = source.setWidth length := by
  ext index inside
  simp

/-- The bits up to the highest of the field, widened by zeros. -/
theorem bitfieldMove_zeroExtension :
    bitfieldMove .zeros source old 0 imms =
      (source.setWidth (imms + 1)).setWidth width := by
  rw [bitfieldMove_of_le _ (Nat.zero_le _), moveField_zeros,
    BitVec.shiftLeft_zero, extractLsb'_zero, Nat.sub_zero]

/-- The bits up to the highest of the field, widened by its sign. -/
theorem bitfieldMove_signExtension :
    bitfieldMove .sign source old 0 imms =
      (source.setWidth (imms + 1)).signExtend width := by
  rw [bitfieldMove_of_le _ (Nat.zero_le _), moveField_sign (by omega),
    BitVec.shiftLeft_zero, extractLsb'_zero, Nat.sub_zero]

/-- A shift to the left moves the low bits up to the highest place. -/
theorem bitfieldMove_shiftLeft
    (inside : immr < width)
    (next : imms + 1 = immr) :
    bitfieldMove .zeros source old immr imms =
      source <<< (width - 1 - imms) := by
  have place : width - immr = width - 1 - imms := by omega
  rw [bitfieldMove_of_lt _ (by omega), moveField_zeros, extractLsb'_zero,
    place]
  apply BitVec.eq_of_getLsbD_eq
  intro index inside
  by_cases below : index < width - 1 - imms
  · simp [below]
  · have field : index - (width - 1 - imms) < imms + 1 := by omega
    have within : index - (width - 1 - imms) < width := by omega
    simp [inside, below, field, BitVec.getLsbD_eq_getElem within]

/-- A shift to the right moves the high bits down to the lowest place. -/
theorem bitfieldMove_shiftRight (inside : immr < width) :
    bitfieldMove .zeros source old immr (width - 1) = source >>> immr := by
  rw [bitfieldMove_of_le _ (by omega), moveField_zeros, BitVec.shiftLeft_zero]
  apply BitVec.eq_of_getLsbD_eq
  intro index small
  have length : width - 1 - immr + 1 = width - immr := by omega
  by_cases field : index < width - immr
  · simp [small, length, field]
  · have outside : width ≤ immr + index := by omega
    simp [small, length, field, outside]

/-- With copies of the sign, such a shift is arithmetic. -/
theorem bitfieldMove_shiftRightArithmetic (inside : immr < width) :
    bitfieldMove .sign source old immr (width - 1) =
      source.sshiftRight immr := by
  rw [bitfieldMove_of_le _ (by omega), moveField_sign (by omega),
    BitVec.shiftLeft_zero]
  apply BitVec.eq_of_getLsbD_eq
  intro index small
  have length : width - 1 - immr + 1 = width - immr := by omega
  have highest : immr + (width - immr - 1) = width - 1 := by omega
  by_cases field : index < width - immr
  · have within : immr + index < width := by omega
    simp [BitVec.getElem_signExtend, BitVec.getElem_sshiftRight, small,
      length, field, within]
  · have outside : ¬immr + index < width := by omega
    have last : width - immr - 1 < width - immr := by omega
    simp [BitVec.getElem_signExtend, BitVec.getElem_sshiftRight,
      BitVec.msb_eq_getLsbD_last, small, length, field, outside, highest,
      last]

end Moves

end MachineCode.Arm64
