import MachineCode.Proofs.RiscV.Shape
import MachineCode.Proofs.Table.Terms

/-!
# The terms of compressed formats

For which words a compressed format refuses its operands or reads them with a
doubt, told by tests on the fields of the word (`Format.terms`). Only three
fields matter: the constant of six bits, which may be zero or too great for a
shift amount, and the register that five bits name as destination.
-/

namespace MachineCode.RiscV

/-- Whether what is read is doubtful, if it is not refused. -/
def doubtOf? : Read Reading → Option Bool
  | .ok result => some result.doubtful
  | .error _ => none

/-! ## Constants that are zero -/

/-- The tests for a constant of six bits that is zero. -/
def zeroConstant : List Guard :=
  [.field 12 1 0, .field 2 5 0]

/-- The test for the zero register as destination. -/
def zeroDestination : List Guard :=
  [.field 7 5 0]

/-- The signed reading of a field is zero for the zero field only. -/
theorem signExtend_eq_zero_iff
    {value bits : Nat}
    (narrow : bits ≤ 64)
    (small : value < 2 ^ bits) :
    signExtend value bits = 0 ↔ value = 0 := by
  constructor
  · intro zero
    have pattern := twosComplement_signExtend_of_lt narrow small
    rw [zero] at pattern
    rw [← pattern]
    simp [twosComplement]
  · rintro rfl
    simp [signExtend]

theorem shortBits_eq (word : Word) :
    shortBits word =
      bitField word.value 2 5 + 32 * bitField word.value 12 1 := by
  have low := bitField_lt word.value 2 5
  have high := bitField_lt word.value 12 1
  rw [shortBits,
    @gather_eq_join _ 0 Immediate.shortConstant (by decide) (by decide)]
  simp only [BitPiece.fields, Immediate.shortConstant, List.map_cons,
    List.map_nil, join]
  omega

theorem gather_stackChange_eq_zero_iff (value : Nat) :
    gather value Immediate.stackChange = 0 ↔
      bitField value 12 1 = 0 ∧ bitField value 2 5 = 0 := by
  rw [@gather_eq_join _ 4 Immediate.stackChange (by decide) (by decide)]
  simp only [BitPiece.fields, Immediate.stackChange, List.map_cons,
    List.map_nil, join, bitField]
  omega

section Fields

variable (word : Word) (grants : Nat → Bool)

theorem all_zeroDestination :
    zeroDestination.all (Guard.holds grants word.value) =
      decide (bitField word.value 7 5 = 0) := by
  simp [zeroDestination, Guard.holds]

/-- The six bits are zero if both of their fields are. -/
theorem all_zeroConstant :
    zeroConstant.all (Guard.holds grants word.value) =
      decide (shortBits word = 0) := by
  rw [Bool.eq_iff_iff, decide_eq_true_eq, shortBits_eq]
  simp only [zeroConstant, List.all_cons, List.all_nil, Guard.holds,
    Bool.and_true, Bool.and_eq_true, decide_eq_true_eq]
  omega

theorem shortConstant_eq_zero_iff :
    shortConstant word = 0 ↔ shortBits word = 0 :=
  signExtend_eq_zero_iff (by decide)
    (@gather_lt word.value 0 Immediate.shortConstant (by decide)
      (by decide))

/-- A change of the stack pointer has the bits of a constant of six bits. -/
theorem stackChange_eq_zero_iff :
    signExtend (gather word.value Immediate.stackChange) 10 = 0 ↔
      shortBits word = 0 := by
  have small : gather word.value Immediate.stackChange < 2 ^ 10 :=
    @gather_lt word.value 4 Immediate.stackChange (by decide) (by decide)
  rw [signExtend_eq_zero_iff (by decide) small,
    gather_stackChange_eq_zero_iff, shortBits_eq]
  omega

end Fields

/-! ## Formats -/

/-- The tests for a shift amount that the registers do not admit. -/
def wideAmount : Xlen → List (List Guard)
  | .rv32 => [[.field 12 1 1]]
  | .rv64 => []

/-- The terms on which a format accepts a compressed word. -/
def Format.terms (xlen : Xlen) : Format → Terms
  | .shortAdd => { doubtful := [zeroConstant] }
  | .shortAddWord | .stackLoadWord | .stackLoadDouble
  | .shortJumpRegister =>
    { refused := [zeroDestination] }
  | .shortLoadConstant | .shortMove | .shortAddRegister =>
    { doubtful := [zeroDestination] }
  | .stackChange => { refused := [zeroConstant] }
  | .shortUpper =>
    { refused := [zeroConstant], doubtful := [zeroDestination] }
  | .shortShift => { refused := wideAmount xlen, doubtful := [zeroConstant] }
  | .shortShiftLeft =>
    { refused := wideAmount xlen
      doubtful := [zeroDestination, zeroConstant] }
  | _ => {}

section Formats

variable {xlen : Xlen} {word : Word} (grants : Nat → Bool)

/-- A shift amount is refused if it has a sixth bit that does not count. -/
theorem shiftAmount_eq :
    shiftAmount xlen word =
      if Guard.holdAny grants word.value (wideAmount xlen) then
        .error (.reserved "shamt" (shortBits word))
      else
        .ok (shortBits word) := by
  have low := bitField_lt word.value 2 5
  have high := bitField_lt word.value 12 1
  cases xlen with
  | rv64 => rfl
  | rv32 =>
      have wide :
          31 < shortBits word ↔ bitField word.value 12 1 = 1 := by
        rw [shortBits_eq]
        omega
      simp [shiftAmount, wide, wideAmount, Guard.holdAny, Guard.holds]

variable (two : word.size = 2)
include two

theorem doubtOf?_readShortAccess
    (bank : Bank)
    (pieces : List BitPiece)
    (size : Nat) :
    doubtOf?
        (readShortAccess xlen (bank.shortFile xlen) pieces size word) =
      some false := by
  rw [readShortAccess, Short.read_eq two, ← Bank.shortFile]
  simp only [bind, Except.bind, registerOperand, memoryOperand,
    Bank.find_shortFile, Functor.map, Except.map]
  rfl

theorem doubtOf?_readStackLoad
    (bank : Bank)
    (zeroReserved : Bool)
    (pieces : List BitPiece)
    (size : Nat) :
    doubtOf?
        (readStackLoad xlen (bank.file xlen) zeroReserved pieces size word) =
      if zeroReserved && bitField word.value 7 5 = 0 then none
      else some false := by
  rw [readStackLoad, Short.read_eq two, ← Bank.file]
  simp only [bind, Except.bind, registerOperand, memoryOperand,
    Bank.find_bitField, Bank.find_stackPointer, Functor.map, Except.map]
  split <;> rfl

theorem doubtOf?_readStackStore
    (bank : Bank)
    (pieces : List BitPiece)
    (size : Nat) :
    doubtOf? (readStackStore xlen (bank.file xlen) pieces size word) =
      some false := by
  rw [readStackStore, Short.read_eq two, ← Bank.file]
  simp only [bind, Except.bind, registerOperand, memoryOperand,
    Bank.find_bitField, Bank.find_stackPointer, Functor.map, Except.map]
  rfl

theorem doubtOf?_readStackAddress :
    doubtOf? (readStackAddress xlen word) = some false := by
  rw [readStackAddress, Short.read_eq two, ← Bank.file, ← Bank.shortFile]
  simp only [bind, Except.bind, registerOperand, Bank.find_shortFile,
    Bank.find_stackPointer, Functor.map, Except.map]
  rfl

theorem doubtOf?_readStackChange :
    doubtOf? (readStackChange xlen word) =
      if shortBits word = 0 then none else some false := by
  rw [readStackChange, Short.read_eq two, ← Bank.file]
  simp only [bind, Except.bind, registerOperand, Bank.find_bitField,
    Functor.map, Except.map, stackChange_eq_zero_iff]
  split <;> rfl

theorem doubtOf?_readShortAdd :
    doubtOf? (readShortAdd xlen word) =
      some (decide (shortBits word = 0)) := by
  rw [readShortAdd, Short.read_eq two, ← Bank.file]
  simp only [bind, Except.bind, registerOperand, Bank.find_bitField,
    Functor.map, Except.map, shortConstant_eq_zero_iff]
  rfl

theorem doubtOf?_readShortAddWord :
    doubtOf? (readShortAddWord xlen word) =
      if bitField word.value 7 5 = 0 then none else some false := by
  rw [readShortAddWord, Short.read_eq two, ← Bank.file]
  simp only [bind, Except.bind, registerOperand, Bank.find_bitField,
    Functor.map, Except.map]
  split <;> rfl

theorem doubtOf?_readShortLoadConstant :
    doubtOf? (readShortLoadConstant xlen word) =
      some (decide (bitField word.value 7 5 = 0)) := by
  rw [readShortLoadConstant, Short.read_eq two, ← Bank.file]
  simp only [bind, Except.bind, registerOperand, Bank.find_bitField,
    Functor.map, Except.map]
  rfl

theorem doubtOf?_readShortUpper :
    doubtOf? (readShortUpper xlen word) =
      if shortBits word = 0 then none
      else some (decide (bitField word.value 7 5 = 0)) := by
  rw [readShortUpper, Short.read_eq two, ← Bank.file]
  simp only [bind, Except.bind, registerOperand, Bank.find_bitField,
    Functor.map, Except.map, shortConstant_eq_zero_iff]
  split <;> rfl

theorem doubtOf?_readShortShift :
    doubtOf? (readShortShift xlen word) =
      if Guard.holdAny grants word.value (wideAmount xlen) then none
      else some (decide (shortBits word = 0)) := by
  rw [readShortShift, Short.read_eq two, ← Bank.shortFile,
    shiftAmount_eq grants]
  simp only [bind, Except.bind, registerOperand, Bank.find_shortFile,
    Functor.map, Except.map]
  cases Guard.holdAny grants word.value (wideAmount xlen) <;> rfl

theorem doubtOf?_readShortShiftLeft :
    doubtOf? (readShortShiftLeft xlen word) =
      if Guard.holdAny grants word.value (wideAmount xlen) then none
      else
        some
          (decide (bitField word.value 7 5 = 0) ||
            decide (shortBits word = 0)) := by
  rw [readShortShiftLeft, Short.read_eq two, ← Bank.file,
    shiftAmount_eq grants]
  simp only [bind, Except.bind, registerOperand, Bank.find_bitField,
    Functor.map, Except.map]
  cases Guard.holdAny grants word.value (wideAmount xlen) <;> rfl

theorem doubtOf?_readShortAnd :
    doubtOf? (readShortAnd xlen word) = some false := by
  rw [readShortAnd, Short.read_eq two, ← Bank.shortFile]
  simp only [bind, Except.bind, registerOperand, Bank.find_shortFile,
    Functor.map, Except.map]
  rfl

theorem doubtOf?_readShortArithmetic :
    doubtOf? (readShortArithmetic xlen word) = some false := by
  rw [readShortArithmetic, Short.read_eq two, ← Bank.shortFile]
  simp only [bind, Except.bind, registerOperand, Bank.find_shortFile,
    Functor.map, Except.map]
  rfl

theorem doubtOf?_readShortJump :
    doubtOf? (readShortJump word) = some false := by
  rw [readShortJump, Short.read_eq two]
  rfl

theorem doubtOf?_readShortBranch :
    doubtOf? (readShortBranch xlen word) = some false := by
  rw [readShortBranch, Short.read_eq two, ← Bank.shortFile]
  simp only [bind, Except.bind, registerOperand, Bank.find_shortFile,
    Functor.map, Except.map]
  rfl

theorem doubtOf?_readShortJumpRegister :
    doubtOf? (readShortJumpRegister xlen word) =
      if bitField word.value 7 5 = 0 then none else some false := by
  rw [readShortJumpRegister, Short.read_eq two, ← Bank.file]
  simp only [bind, Except.bind, registerOperand, Bank.find_bitField,
    Functor.map, Except.map]
  split <;> rfl

theorem doubtOf?_readShortMove :
    doubtOf? (readShortMove xlen word) =
      some (decide (bitField word.value 7 5 = 0)) := by
  rw [readShortMove, Short.read_eq two, ← Bank.file]
  simp only [bind, Except.bind, registerOperand, Bank.find_bitField,
    Functor.map, Except.map]
  rfl

/-- A format accepts the words that its terms say, as they say. -/
theorem Format.doubtOf?_read
    {format : Format}
    (short : format.isShort) :
    doubtOf? (format.read xlen word) =
      (format.terms xlen).doubt? grants word.value := by
  cases format with
  | stackAddress => exact doubtOf?_readStackAddress two
  | shortLoadWord | shortStoreWord | shortLoadDouble | shortStoreDouble =>
      exact doubtOf?_readShortAccess two .integer ..
  | shortFloatLoadWord | shortFloatStoreWord | shortFloatLoadDouble
  | shortFloatStoreDouble =>
      exact doubtOf?_readShortAccess two .floating ..
  | stackFloatLoadWord | stackFloatLoadDouble =>
      exact doubtOf?_readStackLoad two .floating false ..
  | stackStoreWord | stackStoreDouble =>
      exact doubtOf?_readStackStore two .integer ..
  | stackFloatStoreWord | stackFloatStoreDouble =>
      exact doubtOf?_readStackStore two .floating ..
  | shortJump => exact doubtOf?_readShortJump two
  | shortAnd => exact doubtOf?_readShortAnd two
  | shortArithmetic => exact doubtOf?_readShortArithmetic two
  | shortBranch => exact doubtOf?_readShortBranch two
  | bare => rfl
  | stackLoadWord | stackLoadDouble =>
      refine (doubtOf?_readStackLoad two .integer true ..).trans ?_
      simp [terms, Terms.doubt?, Guard.holdAny, all_zeroDestination]
  | stackChange =>
      refine (doubtOf?_readStackChange two).trans ?_
      simp [terms, Terms.doubt?, Guard.holdAny, all_zeroConstant]
  | shortAdd =>
      refine (doubtOf?_readShortAdd two).trans ?_
      simp [terms, Terms.doubt?, Guard.holdAny, all_zeroConstant]
  | shortAddWord =>
      refine (doubtOf?_readShortAddWord two).trans ?_
      simp [terms, Terms.doubt?, Guard.holdAny, all_zeroDestination]
  | shortLoadConstant =>
      refine (doubtOf?_readShortLoadConstant two).trans ?_
      simp [terms, Terms.doubt?, Guard.holdAny, all_zeroDestination]
  | shortUpper =>
      refine (doubtOf?_readShortUpper two).trans ?_
      simp [terms, Terms.doubt?, Guard.holdAny, all_zeroDestination,
        all_zeroConstant]
  | shortShift =>
      refine (doubtOf?_readShortShift grants two).trans ?_
      simp [terms, Terms.doubt?, Guard.holdAny, all_zeroConstant]
  | shortShiftLeft =>
      refine (doubtOf?_readShortShiftLeft grants two).trans ?_
      simp [terms, Terms.doubt?, Guard.holdAny, all_zeroDestination,
        all_zeroConstant]
  | shortJumpRegister =>
      refine (doubtOf?_readShortJumpRegister two).trans ?_
      simp [terms, Terms.doubt?, Guard.holdAny, all_zeroDestination]
  | shortMove | shortAddRegister =>
      refine (doubtOf?_readShortMove two).trans ?_
      simp [terms, Terms.doubt?, Guard.holdAny, all_zeroDestination]
  | _ => cases short

end Formats

end MachineCode.RiscV
