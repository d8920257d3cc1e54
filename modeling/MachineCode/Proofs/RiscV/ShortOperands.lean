import Mathlib.Data.List.Forall2
import MachineCode.Proofs.RiscV.Operands
import MachineCode.Proofs.RiscV.Scattering

/-!
# Operands of compressed words

What the operand formats read from a word of two bytes, said in the parts of
the manual's listing: the operands mean the same as those that the parts give
for the expansion (`Format.gives_of_read`). Only the fields of constants
are narrower.
-/

namespace MachineCode.RiscV

/-- The register file that three bits reach in a bank. -/
def Bank.shortFile (xlen : Xlen) : Bank → RegisterFile
  | .integer => shortIntegers xlen
  | .floating => shortFloats xlen

theorem Bank.find_shortFile
    (xlen : Xlen)
    (bank : Bank)
    (value start : Nat) :
    (bank.shortFile xlen).find (bitField value start 3) =
      .ok (bank.register xlen (8 + bitField value start 3)) := by
  have small : bitField value start 3 < 8 := bitField_lt value start 3
  cases bank with
  | integer =>
      rw [RegisterFile.find, shortFile, shortIntegers,
        RegisterFile.get?_sequential small, register]
  | floating =>
      rw [RegisterFile.find, shortFile, shortFloats,
        RegisterFile.get?_sequential small, register, ← Nat.add_assoc]

theorem Bank.find_stackPointer (xlen : Xlen) :
    (Bank.integer.file xlen).find stackPointer =
      .ok (Bank.integer.register xlen stackPointer) :=
  Bank.integer.find_file xlen (by decide)

/-- Whether a reading has the operands, and nothing but them. -/
def ReadsAs (operands : List Operand) (result : Reading) : Prop :=
  result.operands = operands ∧ result.specifics = .riscV none

section Readings

variable
  {xlen : Xlen}
  {word : Word}
  {result : Reading}
  {bank : Bank}
  (two : word.size = 2)
include two

theorem Short.read_eq :
    Short.read word =
      .ok
        ⟨bitField word.value 7 5, bitField word.value 2 5,
          bitField word.value 7 3, bitField word.value 2 3⟩ := by
  have field := fun {start length} nonempty inside =>
    @Word.field_eq_ok word start length nonempty
      (by rw [Word.width, two]; exact inside)
  rw [Short.read, field (by decide) (by decide),
    field (by decide) (by decide), field (by decide) (by decide),
    field (by decide) (by decide)]
  rfl

theorem readsAs_of_readShortAccess
    {pieces : List BitPiece}
    {size : Nat}
    (read :
      readShortAccess xlen (bank.shortFile xlen) pieces size word =
        .ok result) :
    ReadsAs
      [bank.operand xlen (8 + bitField word.value 2 3),
        memoryAt xlen (8 + bitField word.value 7 3)
          (gather word.value pieces) size]
      result := by
  rw [readShortAccess, Short.read_eq two, ← Bank.shortFile] at read
  simp only [bind, Except.bind, registerOperand, memoryOperand,
    Bank.find_shortFile, Functor.map, Except.map, pure, Except.pure] at read
  cases read
  exact ⟨rfl, rfl⟩

theorem readsAs_of_readStackLoad
    {zeroReserved : Bool}
    {pieces : List BitPiece}
    {size : Nat}
    (read :
      readStackLoad xlen (bank.file xlen) zeroReserved pieces size word =
        .ok result) :
    ReadsAs
      [bank.operand xlen (bitField word.value 7 5),
        memoryAt xlen stackPointer (gather word.value pieces) size]
      result := by
  rw [readStackLoad, Short.read_eq two, ← Bank.file] at read
  simp only [bind, Except.bind, registerOperand, memoryOperand,
    Bank.find_bitField, Bank.find_stackPointer, Functor.map, Except.map,
    pure, Except.pure] at read
  split at read <;> cases read
  exact ⟨rfl, rfl⟩

theorem readsAs_of_readStackStore
    {pieces : List BitPiece}
    {size : Nat}
    (read :
      readStackStore xlen (bank.file xlen) pieces size word = .ok result) :
    ReadsAs
      [bank.operand xlen (bitField word.value 2 5),
        memoryAt xlen stackPointer (gather word.value pieces) size]
      result := by
  rw [readStackStore, Short.read_eq two, ← Bank.file] at read
  simp only [bind, Except.bind, registerOperand, memoryOperand,
    Bank.find_bitField, Bank.find_stackPointer, Functor.map, Except.map,
    pure, Except.pure] at read
  cases read
  exact ⟨rfl, rfl⟩

theorem readsAs_of_readStackAddress
    (read : readStackAddress xlen word = .ok result) :
    ReadsAs
      [Bank.integer.operand xlen (8 + bitField word.value 2 3),
        Bank.integer.operand xlen stackPointer,
        .unsigned (gather word.value Immediate.stackAddress) 10]
      result := by
  rw [readStackAddress, Short.read_eq two, ← Bank.file, ← Bank.shortFile]
    at read
  simp only [bind, Except.bind, registerOperand, Bank.find_shortFile,
    Bank.find_stackPointer, Functor.map, Except.map, pure, Except.pure]
    at read
  cases read
  exact ⟨rfl, rfl⟩

theorem readsAs_of_readStackChange
    (read : readStackChange xlen word = .ok result) :
    ReadsAs
      [Bank.integer.operand xlen (bitField word.value 7 5),
        .signed (signExtend (gather word.value Immediate.stackChange) 10) 10]
      result := by
  rw [readStackChange, Short.read_eq two, ← Bank.file] at read
  simp only [bind, Except.bind, registerOperand, Bank.find_bitField,
    Functor.map, Except.map, pure, Except.pure] at read
  split at read <;> cases read
  exact ⟨rfl, rfl⟩

theorem readsAs_of_readShortAdd
    (read : readShortAdd xlen word = .ok result) :
    ReadsAs
      [Bank.integer.operand xlen (bitField word.value 7 5),
        .signed (shortConstant word) 6]
      result := by
  rw [readShortAdd, Short.read_eq two, ← Bank.file] at read
  simp only [bind, Except.bind, registerOperand, Bank.find_bitField,
    Functor.map, Except.map, pure, Except.pure] at read
  cases read
  exact ⟨rfl, rfl⟩

theorem readsAs_of_readShortAddWord
    (read : readShortAddWord xlen word = .ok result) :
    ReadsAs
      [Bank.integer.operand xlen (bitField word.value 7 5),
        .signed (shortConstant word) 6]
      result := by
  rw [readShortAddWord, Short.read_eq two, ← Bank.file] at read
  simp only [bind, Except.bind, registerOperand, Bank.find_bitField,
    Functor.map, Except.map, pure, Except.pure] at read
  split at read <;> cases read
  exact ⟨rfl, rfl⟩

theorem readsAs_of_readShortLoadConstant
    (read : readShortLoadConstant xlen word = .ok result) :
    ReadsAs
      [Bank.integer.operand xlen (bitField word.value 7 5),
        .signed (shortConstant word) 6]
      result := by
  rw [readShortLoadConstant, Short.read_eq two, ← Bank.file] at read
  simp only [bind, Except.bind, registerOperand, Bank.find_bitField,
    Functor.map, Except.map, pure, Except.pure] at read
  cases read
  exact ⟨rfl, rfl⟩

theorem readsAs_of_readShortUpper
    (read : readShortUpper xlen word = .ok result) :
    ReadsAs
      [Bank.integer.operand xlen (bitField word.value 7 5),
        .unsigned (twosComplement (shortConstant word) 20) 20]
      result := by
  rw [readShortUpper, Short.read_eq two, ← Bank.file] at read
  simp only [bind, Except.bind, registerOperand, Bank.find_bitField,
    Functor.map, Except.map, pure, Except.pure] at read
  split at read <;> cases read
  exact ⟨rfl, rfl⟩

omit two in
/-- A shift amount that is not refused is in the range of the registers. -/
theorem shiftAmount_eq_ok
    {amount : Nat}
    (accepted : shiftAmount xlen word = .ok amount) :
    amount = shortBits word ∧ shortBits word < 2 ^ xlen.shiftBits := by
  rw [shiftAmount] at accepted
  split at accepted
  · cases accepted
  · next admissible =>
    cases accepted
    refine ⟨rfl, ?_⟩
    cases xlen with
    | rv32 =>
        rw [not_and, Nat.not_lt] at admissible
        exact Nat.lt_succ_of_le (admissible rfl)
    | rv64 =>
        exact @gather_lt word.value 0 Immediate.shortConstant (by decide)
          (by decide)

theorem readsAs_of_readShortShift
    (read : readShortShift xlen word = .ok result) :
    ReadsAs
        [Bank.integer.operand xlen (8 + bitField word.value 7 3),
          .unsigned (shortBits word) 6]
        result ∧
      shortBits word < 2 ^ xlen.shiftBits := by
  rw [readShortShift, Short.read_eq two, ← Bank.shortFile] at read
  simp only [bind, Except.bind, registerOperand, Bank.find_shortFile,
    Functor.map, Except.map, pure, Except.pure] at read
  split at read
  · cases read
  · next amount accepted =>
    rcases shiftAmount_eq_ok accepted with ⟨rfl, small⟩
    cases read
    exact ⟨⟨rfl, rfl⟩, small⟩

theorem readsAs_of_readShortShiftLeft
    (read : readShortShiftLeft xlen word = .ok result) :
    ReadsAs
        [Bank.integer.operand xlen (bitField word.value 7 5),
          .unsigned (shortBits word) 6]
        result ∧
      shortBits word < 2 ^ xlen.shiftBits := by
  rw [readShortShiftLeft, Short.read_eq two, ← Bank.file] at read
  simp only [bind, Except.bind, registerOperand, Bank.find_bitField,
    Functor.map, Except.map, pure, Except.pure] at read
  split at read
  · cases read
  · next amount accepted =>
    rcases shiftAmount_eq_ok accepted with ⟨rfl, small⟩
    cases read
    exact ⟨⟨rfl, rfl⟩, small⟩

theorem readsAs_of_readShortAnd
    (read : readShortAnd xlen word = .ok result) :
    ReadsAs
      [Bank.integer.operand xlen (8 + bitField word.value 7 3),
        .signed (shortConstant word) 6]
      result := by
  rw [readShortAnd, Short.read_eq two, ← Bank.shortFile] at read
  simp only [bind, Except.bind, registerOperand, Bank.find_shortFile,
    Functor.map, Except.map, pure, Except.pure] at read
  cases read
  exact ⟨rfl, rfl⟩

theorem readsAs_of_readShortArithmetic
    (read : readShortArithmetic xlen word = .ok result) :
    ReadsAs
      [Bank.integer.operand xlen (8 + bitField word.value 7 3),
        Bank.integer.operand xlen (8 + bitField word.value 2 3)]
      result := by
  rw [readShortArithmetic, Short.read_eq two, ← Bank.shortFile] at read
  simp only [bind, Except.bind, registerOperand, Bank.find_shortFile,
    Functor.map, Except.map, pure, Except.pure] at read
  cases read
  exact ⟨rfl, rfl⟩

theorem readsAs_of_readShortJump
    (read : readShortJump word = .ok result) :
    ReadsAs
      [targetAt word.address
        (signExtend (gather word.value Immediate.shortJump) 12)]
      result := by
  rw [readShortJump, Short.read_eq two, scatteredTarget_eq _ (by decide)]
    at read
  cases read
  exact ⟨rfl, rfl⟩

theorem readsAs_of_readShortBranch
    (read : readShortBranch xlen word = .ok result) :
    ReadsAs
      [Bank.integer.operand xlen (8 + bitField word.value 7 3),
        targetAt word.address
          (signExtend (gather word.value Immediate.shortBranch) 9)]
      result := by
  rw [readShortBranch, Short.read_eq two, ← Bank.shortFile,
    scatteredTarget_eq _ (by decide)] at read
  simp only [bind, Except.bind, registerOperand, Bank.find_shortFile,
    Functor.map, Except.map, pure, Except.pure] at read
  cases read
  exact ⟨rfl, rfl⟩

theorem readsAs_of_readShortJumpRegister
    (read : readShortJumpRegister xlen word = .ok result) :
    ReadsAs [Bank.integer.operand xlen (bitField word.value 7 5)] result := by
  rw [readShortJumpRegister, Short.read_eq two, ← Bank.file] at read
  simp only [bind, Except.bind, registerOperand, Bank.find_bitField,
    Functor.map, Except.map, pure, Except.pure] at read
  split at read <;> cases read
  exact ⟨rfl, rfl⟩

theorem readsAs_of_readShortMove
    (read : readShortMove xlen word = .ok result) :
    ReadsAs
      [Bank.integer.operand xlen (bitField word.value 7 5),
        Bank.integer.operand xlen (bitField word.value 2 5)]
      result := by
  rw [readShortMove, Short.read_eq two, ← Bank.file] at read
  simp only [bind, Except.bind, registerOperand, Bank.find_bitField,
    Functor.map, Except.map, pure, Except.pure] at read
  cases read
  exact ⟨rfl, rfl⟩

end Readings

/-! ## Parts -/

/-- Whether an operand means what a part gives for the expansion. -/
def Part.Means (xlen : Xlen) (word : Word) (part : Part) (operand : Operand) :
    Prop :=
  SameMeaning (part.operand xlen word.address word.value) operand

namespace Part.Means

variable (xlen : Xlen) (word : Word)

theorem register (named : Named) :
    (Part.register named).Means xlen word
      (named.bank.operand xlen (named.number word.value)) :=
  rfl

theorem memory (base : Named) (scattering : Scattering) (size : Nat) :
    (Part.memory base scattering size).Means xlen word
      (memoryAt xlen (base.number word.value)
        (gather word.value scattering.pieces) size) := by
  rw [← scattering.value_eq_gather]
  rfl

theorem target (scattering : Scattering) :
    (Part.target scattering).Means xlen word
      (targetAt word.address
        (signExtend (gather word.value scattering.pieces)
          scattering.bits)) := by
  rw [← scattering.value_eq_gather]
  rfl

theorem constant (scattering : Scattering) (size : Nat) :
    (Part.constant scattering).Means xlen word
      (.signed
        (signExtend (gather word.value scattering.pieces) scattering.bits)
        size) := by
  rw [← scattering.value_eq_gather]
  rfl

theorem distance (scattering : Scattering) (size : Nat) :
    (Part.distance scattering).Means xlen word
      (.unsigned (gather word.value scattering.pieces) size) := by
  rw [← scattering.value_eq_gather]
  rfl

theorem amount :
    Part.amount.Means xlen word (.unsigned (shortBits word) 6) := by
  have same := Scattering.constant.value_eq_gather word.value
  rw [Scattering.pieces, ← shortBits] at same
  rw [← same]
  rfl

theorem upper :
    Part.upper.Means xlen word
      (.unsigned (twosComplement (shortConstant word) 20) 20) := by
  have same := Scattering.constant.value_eq_gather word.value
  rw [Scattering.pieces, ← shortBits] at same
  rw [shortConstant, ← same]
  rfl

end Part.Means

/-- A data register, and memory. -/
def accessParts
    (data base : Named)
    (scattering : Scattering)
    (size : Nat) :
    List Part :=
  [.register data, .memory base scattering size]

/-- What the format of a compressed word reads. -/
def Format.parts : Format → Option (List Part)
  | .stackAddress =>
    some
      [.register (.short .integer 2), .register stack,
        .distance .stackAddress]
  | .shortLoadWord | .shortStoreWord =>
    some (accessParts (.short .integer 2) (.short .integer 7) .word 4)
  | .shortLoadDouble | .shortStoreDouble =>
    some (accessParts (.short .integer 2) (.short .integer 7) .double 8)
  | .shortFloatLoadWord | .shortFloatStoreWord =>
    some (accessParts (.short .floating 2) (.short .integer 7) .word 4)
  | .shortFloatLoadDouble | .shortFloatStoreDouble =>
    some (accessParts (.short .floating 2) (.short .integer 7) .double 8)
  | .shortAdd | .shortAddWord | .shortLoadConstant =>
    some [.register (.full .integer 7), .constant .constant]
  | .shortJump => some [.target .jump]
  | .stackChange =>
    some [.register (.full .integer 7), .constant .stackChange]
  | .shortUpper => some [.register (.full .integer 7), .upper]
  | .shortShift => some [.register (.short .integer 7), .amount]
  | .shortAnd =>
    some [.register (.short .integer 7), .constant .constant]
  | .shortArithmetic =>
    some [.register (.short .integer 7), .register (.short .integer 2)]
  | .shortBranch =>
    some [.register (.short .integer 7), .target .branch]
  | .shortShiftLeft => some [.register (.full .integer 7), .amount]
  | .stackLoadWord =>
    some (accessParts (.full .integer 7) stack .stackLoadWord 4)
  | .stackLoadDouble =>
    some (accessParts (.full .integer 7) stack .stackLoadDouble 8)
  | .stackFloatLoadWord =>
    some (accessParts (.full .floating 7) stack .stackLoadWord 4)
  | .stackFloatLoadDouble =>
    some (accessParts (.full .floating 7) stack .stackLoadDouble 8)
  | .shortJumpRegister => some [.register (.full .integer 7)]
  | .shortMove | .shortAddRegister =>
    some [.register (.full .integer 7), .register (.full .integer 2)]
  | .stackStoreWord =>
    some (accessParts (.full .integer 2) stack .stackStoreWord 4)
  | .stackStoreDouble =>
    some (accessParts (.full .integer 2) stack .stackStoreDouble 8)
  | .stackFloatStoreWord =>
    some (accessParts (.full .floating 2) stack .stackStoreWord 4)
  | .stackFloatStoreDouble =>
    some (accessParts (.full .floating 2) stack .stackStoreDouble 8)
  | .bare => some []
  | _ => none

/--
Whether a reading gives what the parts give for the expansion. A shift amount
among them is in the range of the registers.
-/
def Reading.Gives
    (xlen : Xlen)
    (word : Word)
    (parts : List Part)
    (result : Reading) :
    Prop :=
  result.specifics = .riscV none ∧
    List.Forall₂ (Part.Means xlen word) parts result.operands ∧
    (.amount ∈ parts →
      Scattering.constant.value word.value < 2 ^ xlen.shiftBits)

section Gives

variable {xlen : Xlen} {word : Word} {result : Reading}

theorem ReadsAs.gives
    {parts : List Part}
    {operands : List Operand}
    (reads : ReadsAs operands result)
    (means : List.Forall₂ (Part.Means xlen word) parts operands)
    (noAmount : .amount ∉ parts) :
    Reading.Gives xlen word parts result := by
  rcases reads with ⟨rfl, specifics⟩
  exact ⟨specifics, means, fun member => absurd member noAmount⟩

theorem ReadsAs.gives_access
    {data base : Named}
    {scattering : Scattering}
    {size : Nat}
    (reads :
      ReadsAs
        [data.bank.operand xlen (data.number word.value),
          memoryAt xlen (base.number word.value)
            (gather word.value scattering.pieces) size]
        result) :
    Reading.Gives xlen word (accessParts data base scattering size)
      result :=
  reads.gives
    (.cons (.register xlen word data)
      (.cons (.memory xlen word base scattering size) .nil))
    (by simp [accessParts])

theorem ReadsAs.gives_constant
    {named : Named}
    {scattering : Scattering}
    {size : Nat}
    (reads :
      ReadsAs
        [named.bank.operand xlen (named.number word.value),
          .signed
            (signExtend (gather word.value scattering.pieces)
              scattering.bits)
            size]
        result) :
    Reading.Gives xlen word [.register named, .constant scattering]
      result :=
  reads.gives
    (.cons (.register xlen word named)
      (.cons (.constant xlen word scattering size) .nil))
    (by simp)

theorem ReadsAs.gives_shift
    {named : Named}
    (reads :
      ReadsAs
        [named.bank.operand xlen (named.number word.value),
          .unsigned (shortBits word) 6]
        result)
    (small : shortBits word < 2 ^ xlen.shiftBits) :
    Reading.Gives xlen word [.register named, .amount] result := by
  rcases reads with ⟨operands, specifics⟩
  refine ⟨specifics, ?_, ?_⟩
  · rw [operands]
    exact .cons (.register xlen word named)
      (.cons (.amount xlen word) .nil)
  · intro _
    rw [Scattering.value_eq_gather]
    exact small

variable (two : word.size = 2)
include two

/-- The operands of a compressed word mean what its parts give. -/
theorem Format.gives_of_read
    {format : Format}
    {parts : List Part}
    (listed : format.parts = some parts)
    (read : format.read xlen word = .ok result) :
    Reading.Gives xlen word parts result := by
  cases format with
  | stackAddress =>
      cases listed
      exact (readsAs_of_readStackAddress two read).gives
        (.cons (.register xlen word (.short .integer 2))
          (.cons (.register xlen word stack)
            (.cons (.distance xlen word .stackAddress 10) .nil)))
        (by simp)
  | shortLoadWord | shortStoreWord | shortLoadDouble | shortStoreDouble =>
      cases listed
      exact (@readsAs_of_readShortAccess xlen word result .integer two _ _
        read).gives_access
  | shortFloatLoadWord | shortFloatStoreWord | shortFloatLoadDouble
  | shortFloatStoreDouble =>
      cases listed
      exact (@readsAs_of_readShortAccess xlen word result .floating two _ _
        read).gives_access
  | shortAdd =>
      cases listed
      exact (readsAs_of_readShortAdd two read).gives_constant
  | shortAddWord =>
      cases listed
      exact (readsAs_of_readShortAddWord two read).gives_constant
  | shortLoadConstant =>
      cases listed
      exact (readsAs_of_readShortLoadConstant two read).gives_constant
  | stackChange =>
      cases listed
      exact (readsAs_of_readStackChange two read).gives_constant
  | shortAnd =>
      cases listed
      exact (readsAs_of_readShortAnd two read).gives_constant
  | shortUpper =>
      cases listed
      exact (readsAs_of_readShortUpper two read).gives
        (.cons (.register xlen word (.full .integer 7))
          (.cons (.upper xlen word) .nil))
        (by simp)
  | shortShift =>
      cases listed
      rcases readsAs_of_readShortShift two read with ⟨reads, small⟩
      exact reads.gives_shift small
  | shortShiftLeft =>
      cases listed
      rcases readsAs_of_readShortShiftLeft two read with ⟨reads, small⟩
      exact reads.gives_shift small
  | shortArithmetic =>
      cases listed
      exact (readsAs_of_readShortArithmetic two read).gives
        (.cons (.register xlen word (.short .integer 7))
          (.cons (.register xlen word (.short .integer 2)) .nil))
        (by simp)
  | shortMove | shortAddRegister =>
      cases listed
      exact (readsAs_of_readShortMove two read).gives
        (.cons (.register xlen word (.full .integer 7))
          (.cons (.register xlen word (.full .integer 2)) .nil))
        (by simp)
  | shortJump =>
      cases listed
      exact (readsAs_of_readShortJump two read).gives
        (.cons (.target xlen word .jump) .nil) (by simp)
  | shortBranch =>
      cases listed
      exact (readsAs_of_readShortBranch two read).gives
        (.cons (.register xlen word (.short .integer 7))
          (.cons (.target xlen word .branch) .nil))
        (by simp)
  | shortJumpRegister =>
      cases listed
      exact (readsAs_of_readShortJumpRegister two read).gives
        (.cons (.register xlen word (.full .integer 7)) .nil) (by simp)
  | stackLoadWord | stackLoadDouble =>
      cases listed
      exact (@readsAs_of_readStackLoad xlen word result .integer two _ _ _
        read).gives_access
  | stackFloatLoadWord | stackFloatLoadDouble =>
      cases listed
      exact (@readsAs_of_readStackLoad xlen word result .floating two _ _ _
        read).gives_access
  | stackStoreWord | stackStoreDouble =>
      cases listed
      exact (@readsAs_of_readStackStore xlen word result .integer two _ _
        read).gives_access
  | stackFloatStoreWord | stackFloatStoreDouble =>
      cases listed
      exact (@readsAs_of_readStackStore xlen word result .floating two _ _
        read).gives_access
  | bare =>
      cases listed
      cases read
      exact ⟨rfl, .nil, by simp⟩
  | _ => cases listed

end Gives

end MachineCode.RiscV
