import MachineCode.Proofs.Reading
import MachineCode.Proofs.RiscV.Formats

/-!
# Operands of 32-bit words

What the operand formats read from a word of four bytes, said without a
possible failure: such a word has all the fields, and five bits always name a
register. The parts of an operand that an encoding asks for are the ones that
the operand was made from.
-/

namespace MachineCode.RiscV

/-! ## Registers -/

namespace Bank

/-- The register file of a bank. -/
def file (xlen : Xlen) : Bank → RegisterFile
  | .integer => integers xlen
  | .floating => floats xlen

theorem find_file
    (xlen : Xlen)
    (bank : Bank)
    {number : Nat}
    (small : number < 32) :
    (bank.file xlen).find number = .ok (bank.register xlen number) := by
  cases bank with
  | integer =>
      rw [RegisterFile.find, file, integers,
        RegisterFile.get?_sequential small, Nat.zero_add, register]
  | floating =>
      rw [RegisterFile.find, file, floats,
        RegisterFile.get?_sequential small, register]

theorem register_injective
    {xlen : Xlen}
    {bank : Bank}
    {left right : Nat}
    (same : bank.register xlen left = bank.register xlen right) :
    left = right := by
  cases bank with
  | integer => exact congrArg Register.id same
  | floating => exact Nat.add_left_cancel (congrArg Register.id same)

/-- The number of a register is the one that it was made from. -/
theorem number?_register
    (xlen : Xlen)
    (bank : Bank)
    {number : Nat}
    (small : number < 32) :
    bank.number? xlen (bank.register xlen number) = some number := by
  rw [number?, List.find?_range_eq_some]
  refine ⟨by simp, List.mem_range.mpr small, ?_⟩
  intro other below
  simp only [Bool.not_eq_true', decide_eq_false_iff_not]
  intro same
  exact absurd (register_injective same) (Nat.ne_of_lt below)

@[simp]
theorem operandNumber?_operand
    (xlen : Xlen)
    (bank : Bank)
    {number : Nat}
    (small : number < 32) :
    bank.operandNumber? xlen (bank.operand xlen number) = some number :=
  bank.number?_register xlen small

end Bank

/-- Memory is taken apart into the base and the distance it was made from. -/
theorem memoryParts?_memoryAt
    (xlen : Xlen)
    (size : Nat)
    {base : Nat}
    (displacement : Int)
    (small : base < 32) :
    memoryParts? xlen size (memoryAt xlen base displacement size) =
      some (base, displacement) := by
  have found := Bank.integer.number?_register xlen small
  simp [memoryParts?, memoryAt, found]

@[simp]
theorem signed?_signed (bits : Nat) (value : Int) :
    signed? bits (.signed value bits) = some value := by
  simp [signed?, Operand.signed]

@[simp]
theorem unsigned?_unsigned (bits value : Nat) :
    unsigned? bits (.unsigned value bits) = some value := by
  simp [unsigned?, Operand.unsigned]

@[simp]
theorem offset?_targetAt (address : Address) (offset : Int) :
    offset? (targetAt address offset) = some offset :=
  rfl

@[simp]
theorem control?_controlRegister (number : Nat) :
    control? (.systemRegister (controlRegister number)) = some number :=
  rfl

theorem roundingBits_lt (mode : RoundingMode) :
    roundingBits mode < 2 ^ 3 := by
  cases mode <;> decide

/-- A rounding mode is read from its own bits. -/
theorem ofBits?_roundingBits (mode : RoundingMode) :
    RoundingMode.ofBits? (roundingBits mode) = some mode := by
  cases mode <;> rfl

/-- Only the bits of a rounding mode are read as the mode. -/
theorem roundingBits_of_ofBits?
    {bits : Nat}
    {mode : RoundingMode}
    (accepted : RoundingMode.ofBits? bits = some mode) :
    roundingBits mode = bits := by
  unfold RoundingMode.ofBits? at accepted
  split at accepted <;> cases accepted <;> rfl

/-! ## Readings -/

/-- A field of five bits names a register. -/
theorem Bank.find_bitField
    (xlen : Xlen)
    (bank : Bank)
    (value start : Nat) :
    (bank.file xlen).find (bitField value start 5) =
      .ok (bank.register xlen (bitField value start 5)) :=
  bank.find_file xlen (bitField_lt value start 5)

/-- A scattered target is at the signed reading of its bits. -/
theorem scatteredTarget_eq
    (pieces : List BitPiece)
    {bits : Nat}
    (narrow : bits ≤ 64)
    (word : Word) :
    scatteredTarget pieces bits word =
      targetAt word.address
        (signExtend (gather word.value pieces) bits) := by
  have aligned : word.address &&& ~~~(0 : Address) = word.address :=
    BitVec.and_allOnes
  rw [scatteredTarget, Operand.relativeField, relativeTarget, aligned,
    relativeOffset_one narrow, targetAt]

section Readings

variable {xlen : Xlen} {word : Word} (four : word.size = 4)
include four

theorem readRegister_eq
    (bank : Bank)
    {start : Nat}
    (inside : start + 5 ≤ 32) :
    readRegister (bank.file xlen) start word =
      .ok (bank.operand xlen (bitField word.value start 5)) := by
  rw [readRegister, field_eq_ok_of_size four (by decide) inside]
  simp only [bind, Except.bind, bank.find_bitField, pure, Except.pure,
    Bank.operand]

theorem readUpper_eq :
    readUpper xlen word =
      .ok (reading
        [Bank.integer.operand xlen (bitField word.value 7 5),
          .unsigned (bitField word.value 12 20) 20]) := by
  rw [readUpper, ← Bank.file, readRegister_eq four _ (by decide),
    field_eq_ok_of_size four (by decide) (by decide)]
  rfl

theorem readJump_eq :
    readJump xlen word =
      .ok (reading
        [Bank.integer.operand xlen (bitField word.value 7 5),
          targetAt word.address
            (signExtend (gather word.value Immediate.jump) 21)]) := by
  rw [readJump, ← Bank.file, readRegister_eq four _ (by decide),
    scatteredTarget_eq _ (by decide)]
  rfl

theorem readBranch_eq :
    readBranch xlen word =
      .ok (reading
        [Bank.integer.operand xlen (bitField word.value 15 5),
          Bank.integer.operand xlen (bitField word.value 20 5),
          targetAt word.address
            (signExtend (gather word.value Immediate.branch) 13)]) := by
  rw [readBranch, ← Bank.file, readRegister_eq four _ (by decide),
    readRegister_eq four _ (by decide), scatteredTarget_eq _ (by decide)]
  rfl

theorem readConstant_eq :
    readConstant xlen word =
      .ok (reading
        [Bank.integer.operand xlen (bitField word.value 7 5),
          Bank.integer.operand xlen (bitField word.value 15 5),
          .signedField (bitField word.value 20 12) 12]) := by
  rw [readConstant, ← Bank.file, readRegister_eq four _ (by decide),
    readRegister_eq four _ (by decide),
    field_eq_ok_of_size four (by decide) (by decide)]
  rfl

theorem readShift_eq
    {bits : Nat}
    (nonempty : bits ≠ 0)
    (inside : 20 + bits ≤ 32) :
    readShift xlen bits word =
      .ok (reading
        [Bank.integer.operand xlen (bitField word.value 7 5),
          Bank.integer.operand xlen (bitField word.value 15 5),
          .unsigned (bitField word.value 20 bits) bits]) := by
  rw [readShift, ← Bank.file, readRegister_eq four _ (by decide),
    readRegister_eq four _ (by decide),
    field_eq_ok_of_size four nonempty inside]
  rfl

theorem readThree_eq (bank : Bank) :
    readThree (bank.file xlen) word =
      .ok
        [bank.operand xlen (bitField word.value 7 5),
          bank.operand xlen (bitField word.value 15 5),
          bank.operand xlen (bitField word.value 20 5)] := by
  rw [readThree, readRegister_eq four _ (by decide),
    readRegister_eq four _ (by decide), readRegister_eq four _ (by decide)]
  rfl

theorem readLoad_eq (bank : Bank) :
    readLoad xlen (bank.file xlen) word =
      .ok (reading
        [bank.operand xlen (bitField word.value 7 5),
          memoryAt xlen (bitField word.value 15 5)
            (signExtend (bitField word.value 20 12) 12)
            (2 ^ bitField word.value 12 2)]) := by
  rw [readLoad, ← Bank.file, readRegister_eq four _ (by decide),
    Word.signedField, field_eq_ok_of_size four (by decide) (by decide),
    field_eq_ok_of_size four (by decide) (by decide),
    field_eq_ok_of_size four (by decide) (by decide)]
  simp only [bind, Except.bind, Bank.find_bitField, pure, Except.pure,
    memoryAt]

theorem readStore_eq (bank : Bank) :
    readStore xlen (bank.file xlen) word =
      .ok (reading
        [bank.operand xlen (bitField word.value 20 5),
          memoryAt xlen (bitField word.value 15 5)
            (signExtend (gather word.value Immediate.store) 12)
            (2 ^ bitField word.value 12 2)]) := by
  rw [readStore, ← Bank.file, readRegister_eq four _ (by decide),
    field_eq_ok_of_size four (by decide) (by decide),
    field_eq_ok_of_size four (by decide) (by decide)]
  simp only [bind, Except.bind, Bank.find_bitField, pure, Except.pure,
    memoryAt]

theorem readFence_eq :
    readFence word =
      .ok (reading
        [.unsigned (bitField word.value 24 4) 4,
          .unsigned (bitField word.value 20 4) 4]) := by
  rw [readFence, field_eq_ok_of_size four (by decide) (by decide),
    field_eq_ok_of_size four (by decide) (by decide)]
  rfl

theorem readControl_eq :
    readControl xlen word =
      .ok (reading
        [Bank.integer.operand xlen (bitField word.value 7 5),
          .systemRegister (controlRegister (bitField word.value 20 12)),
          Bank.integer.operand xlen (bitField word.value 15 5)]) := by
  rw [readControl, ← Bank.file, readRegister_eq four _ (by decide),
    readRegister_eq four _ (by decide),
    field_eq_ok_of_size four (by decide) (by decide)]
  rfl

theorem readControlConstant_eq :
    readControlConstant xlen word =
      .ok (reading
        [Bank.integer.operand xlen (bitField word.value 7 5),
          .systemRegister (controlRegister (bitField word.value 20 12)),
          .unsigned (bitField word.value 15 5) 5]) := by
  rw [readControlConstant, ← Bank.file, readRegister_eq four _ (by decide),
    field_eq_ok_of_size four (by decide) (by decide),
    field_eq_ok_of_size four (by decide) (by decide)]
  rfl

theorem readFloat_eq
    {mode : RoundingMode}
    (accepted :
      RoundingMode.ofBits? (bitField word.value 12 3) = some mode) :
    readFloat xlen word =
      .ok
        { operands :=
            [Bank.floating.operand xlen (bitField word.value 7 5),
              Bank.floating.operand xlen (bitField word.value 15 5),
              Bank.floating.operand xlen (bitField word.value 20 5)]
          specifics := .riscV (some mode) } := by
  have three := @readThree_eq xlen word four Bank.floating
  rw [Bank.file] at three
  rw [readFloat, field_eq_ok_of_size four (by decide) (by decide)]
  simp only [bind, Except.bind, accepted, three, pure, Except.pure]

/-- A reserved rounding mode is refused. -/
theorem exists_mode_of_readFloat
    {result : Reading}
    (read : readFloat xlen word = .ok result) :
    ∃ mode,
      RoundingMode.ofBits? (bitField word.value 12 3) = some mode := by
  rw [readFloat, field_eq_ok_of_size four (by decide) (by decide)] at read
  cases accepted : RoundingMode.ofBits? (bitField word.value 12 3) with
  | some mode => exact ⟨mode, rfl⟩
  | none =>
      simp only [bind, Except.bind, accepted] at read
      cases read

theorem readMove_eq (destinations sources : Bank) :
    readMove (destinations.file xlen) (sources.file xlen) word =
      .ok (reading
        [destinations.operand xlen (bitField word.value 7 5),
          sources.operand xlen (bitField word.value 15 5)]) := by
  rw [readMove, readRegister_eq four _ (by decide),
    readRegister_eq four _ (by decide)]
  rfl

end Readings

end MachineCode.RiscV
