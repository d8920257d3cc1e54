import MachineCode.Proofs.RiscV.Codec

/-!
# Reading, then encoding

Of a word of four bytes that has the fixed fields of an encoding, the reader
of the encoding gives operands that are encoded in the same word. There is one
lemma for each encoding.
-/

namespace MachineCode.RiscV.Encoding

/-- Whether what is read from a word is certain and encoded in that word. -/
def Recovers
    (xlen : Xlen)
    (word : Word)
    (result : Reading)
    (encoding : Encoding) :
    Prop :=
  result.doubtful = false ∧
    ∃ mode,
      result.specifics = .riscV mode ∧
        encoding.encode? xlen result.operands mode = some word.value

section Recovers

variable
  {xlen : Xlen}
  {word : Word}
  {result : Reading}
  (four : word.size = 4)
include four

theorem recovers_upper
    {major : Nat}
    (fixed : (Encoding.upper major).Matches word.value)
    (read : (Encoding.upper major).read xlen word = .ok result) :
    (Encoding.upper major).Recovers xlen word result := by
  have small := value_lt_of_size four
  have five := fun start => bitField_lt word.value start 5
  have sameMajor : bitField word.value 0 7 = major :=
    fixed.field (by simp [tests])
  rw [Encoding.read, readUpper_eq four] at read
  cases read
  refine ⟨rfl, none, rfl, ?_⟩
  rw [reading, encode?_upper xlen (five _), ← sameMajor,
    uWord_of_fields small]

theorem recovers_jump
    {major : Nat}
    (fixed : (Encoding.jump major).Matches word.value)
    (read : (Encoding.jump major).read xlen word = .ok result) :
    (Encoding.jump major).Recovers xlen word result := by
  have small := value_lt_of_size four
  have five := fun start => bitField_lt word.value start 5
  have sameMajor : bitField word.value 0 7 = major :=
    fixed.field (by simp [tests])
  have offsetSmall : gather word.value Immediate.jump < 2 ^ 21 :=
    @gather_lt word.value 1 Immediate.jump (by decide) (by decide)
  rw [Encoding.read, readJump_eq four] at read
  cases read
  refine ⟨rfl, none, rfl, ?_⟩
  rw [reading, encode?_jump xlen (five _), ← sameMajor,
    twosComplement_signExtend_of_lt (by decide) offsetSmall,
    jWord_of_fields small]

theorem recovers_branch
    {funct3 : Nat}
    (fixed : (Encoding.branch funct3).Matches word.value)
    (read : (Encoding.branch funct3).read xlen word = .ok result) :
    (Encoding.branch funct3).Recovers xlen word result := by
  have small := value_lt_of_size four
  have five := fun start => bitField_lt word.value start 5
  have sameMajor : bitField word.value 0 7 = branchMajor :=
    fixed.field (by simp [tests])
  have sameFunct3 : bitField word.value 12 3 = funct3 :=
    fixed.field (by simp [tests])
  have offsetSmall : gather word.value Immediate.branch < 2 ^ 13 :=
    @gather_lt word.value 1 Immediate.branch (by decide) (by decide)
  rw [Encoding.read, readBranch_eq four] at read
  cases read
  refine ⟨rfl, none, rfl, ?_⟩
  rw [reading, encode?_branch xlen (five _) (five _), ← sameMajor,
    ← sameFunct3,
    twosComplement_signExtend_of_lt (by decide) offsetSmall,
    bWord_of_fields small]

theorem recovers_load
    {bank : Bank}
    {major funct3 size : Nat}
    (sound : (Encoding.load bank major funct3 size).wellFormed)
    (fixed : (Encoding.load bank major funct3 size).Matches word.value)
    (read :
      (Encoding.load bank major funct3 size).read xlen word = .ok result) :
    (Encoding.load bank major funct3 size).Recovers xlen word result := by
  have small := value_lt_of_size four
  have five := fun start => bitField_lt word.value start 5
  have sameMajor : bitField word.value 0 7 = major :=
    fixed.field (by simp [tests])
  have sameFunct3 : bitField word.value 12 3 = funct3 :=
    fixed.field (by simp [tests])
  have sameSize : 2 ^ bitField word.value 12 2 = size := by
    have named := (Bool.and_eq_true_iff.mp sound).2
    rw [decide_eq_true_eq, ← sameFunct3,
      bitField_bitField (by decide)] at named
    exact named.symm
  rw [Encoding.read, readLoad_eq four] at read
  cases read
  refine ⟨rfl, none, rfl, ?_⟩
  rw [reading, sameSize, encode?_load xlen (five _) (five _),
    ← sameMajor, ← sameFunct3,
    twosComplement_signExtend_of_lt (by decide) (bitField_lt ..),
    iWord_of_fields small]

theorem recovers_store
    {bank : Bank}
    {major funct3 size : Nat}
    (sound : (Encoding.store bank major funct3 size).wellFormed)
    (fixed : (Encoding.store bank major funct3 size).Matches word.value)
    (read :
      (Encoding.store bank major funct3 size).read xlen word = .ok result) :
    (Encoding.store bank major funct3 size).Recovers xlen word result := by
  have small := value_lt_of_size four
  have five := fun start => bitField_lt word.value start 5
  have sameMajor : bitField word.value 0 7 = major :=
    fixed.field (by simp [tests])
  have sameFunct3 : bitField word.value 12 3 = funct3 :=
    fixed.field (by simp [tests])
  have sameSize : 2 ^ bitField word.value 12 2 = size := by
    have named := (Bool.and_eq_true_iff.mp sound).2
    rw [decide_eq_true_eq, ← sameFunct3,
      bitField_bitField (by decide)] at named
    exact named.symm
  have displacementSmall :
      gather word.value Immediate.store < 2 ^ 12 :=
    @gather_lt word.value 0 Immediate.store (by decide) (by decide)
  rw [Encoding.read, readStore_eq four] at read
  cases read
  refine ⟨rfl, none, rfl, ?_⟩
  rw [reading, sameSize, encode?_store xlen (five _) (five _),
    ← sameMajor, ← sameFunct3,
    twosComplement_signExtend_of_lt (by decide) displacementSmall,
    sWord_of_fields small]

theorem recovers_constant
    {major funct3 : Nat}
    (fixed : (Encoding.constant major funct3).Matches word.value)
    (read : (Encoding.constant major funct3).read xlen word = .ok result) :
    (Encoding.constant major funct3).Recovers xlen word result := by
  have small := value_lt_of_size four
  have five := fun start => bitField_lt word.value start 5
  have sameMajor : bitField word.value 0 7 = major :=
    fixed.field (by simp [tests])
  have sameFunct3 : bitField word.value 12 3 = funct3 :=
    fixed.field (by simp [tests])
  rw [Encoding.read, readConstant_eq four] at read
  cases read
  refine ⟨rfl, none, rfl, ?_⟩
  rw [reading, Operand.signedField,
    encode?_constant xlen (five _) (five _), ← sameMajor, ← sameFunct3,
    twosComplement_signExtend_of_lt (by decide) (bitField_lt ..),
    iWord_of_fields small]

theorem recovers_shift
    {bits major funct3 selector : Nat}
    (sound : (Encoding.shift bits major funct3 selector).wellFormed)
    (fixed : (Encoding.shift bits major funct3 selector).Matches word.value)
    (read :
      (Encoding.shift bits major funct3 selector).read xlen word =
        .ok result) :
    (Encoding.shift bits major funct3 selector).Recovers xlen word
      result := by
  have small := value_lt_of_size four
  have five := fun start => bitField_lt word.value start 5
  have sameMajor : bitField word.value 0 7 = major :=
    fixed.field (by simp [tests])
  have sameFunct3 : bitField word.value 12 3 = funct3 :=
    fixed.field (by simp [tests])
  have sameSelector :
      bitField word.value (20 + bits) (12 - bits) = selector :=
    fixed.field (by simp [tests])
  have amountBits := (Bool.and_eq_true_iff.mp sound).2
  rw [Bool.and_eq_true, decide_eq_true_eq, decide_eq_true_eq]
    at amountBits
  rcases amountBits with ⟨positive, narrow⟩
  rw [Encoding.read,
    readShift_eq four (Nat.ne_of_gt positive) (by omega)] at read
  cases read
  refine ⟨rfl, none, rfl, ?_⟩
  rw [reading, encode?_shift xlen (five _) (five _), ← sameMajor,
    ← sameFunct3, ← sameSelector, shiftWord_of_fields small narrow]

theorem recovers_registers
    {major funct3 funct7 : Nat}
    (fixed : (Encoding.registers major funct3 funct7).Matches word.value)
    (read :
      (Encoding.registers major funct3 funct7).read xlen word = .ok result) :
    (Encoding.registers major funct3 funct7).Recovers xlen word result := by
  have small := value_lt_of_size four
  have five := fun start => bitField_lt word.value start 5
  have sameMajor : bitField word.value 0 7 = major :=
    fixed.field (by simp [tests])
  have sameFunct3 : bitField word.value 12 3 = funct3 :=
    fixed.field (by simp [tests])
  have sameFunct7 : bitField word.value 25 7 = funct7 :=
    fixed.field (by simp [tests])
  simp only [Encoding.read, readThree_eq four] at read
  cases read
  refine ⟨rfl, none, rfl, ?_⟩
  rw [reading, encode?_registers xlen (five _) (five _) (five _),
    ← sameMajor, ← sameFunct3, ← sameFunct7, rWord_of_fields small]

theorem recovers_control
    {funct3 : Nat}
    (fixed : (Encoding.control funct3).Matches word.value)
    (read : (Encoding.control funct3).read xlen word = .ok result) :
    (Encoding.control funct3).Recovers xlen word result := by
  have small := value_lt_of_size four
  have five := fun start => bitField_lt word.value start 5
  have sameMajor : bitField word.value 0 7 = systemMajor :=
    fixed.field (by simp [tests])
  have sameFunct3 : bitField word.value 12 3 = funct3 :=
    fixed.field (by simp [tests])
  rw [Encoding.read, readControl_eq four] at read
  cases read
  refine ⟨rfl, none, rfl, ?_⟩
  rw [reading, encode?_control xlen (five _) (five _), ← sameMajor,
    ← sameFunct3, iWord_of_fields small]

theorem recovers_controlConstant
    {funct3 : Nat}
    (fixed : (Encoding.controlConstant funct3).Matches word.value)
    (read : (Encoding.controlConstant funct3).read xlen word = .ok result) :
    (Encoding.controlConstant funct3).Recovers xlen word result := by
  have small := value_lt_of_size four
  have five := fun start => bitField_lt word.value start 5
  have sameMajor : bitField word.value 0 7 = systemMajor :=
    fixed.field (by simp [tests])
  have sameFunct3 : bitField word.value 12 3 = funct3 :=
    fixed.field (by simp [tests])
  rw [Encoding.read, readControlConstant_eq four] at read
  cases read
  refine ⟨rfl, none, rfl, ?_⟩
  rw [reading, encode?_controlConstant xlen (five _), ← sameMajor,
    ← sameFunct3, iWord_of_fields small]

theorem recovers_float
    {funct7 : Nat}
    (fixed : (Encoding.float funct7).Matches word.value)
    (read : (Encoding.float funct7).read xlen word = .ok result) :
    (Encoding.float funct7).Recovers xlen word result := by
  have small := value_lt_of_size four
  have five := fun start => bitField_lt word.value start 5
  have sameMajor : bitField word.value 0 7 = floatMajor :=
    fixed.field (by simp [tests])
  have sameFunct7 : bitField word.value 25 7 = funct7 :=
    fixed.field (by simp [tests])
  rcases exists_mode_of_readFloat four read with ⟨mode, accepted⟩
  rw [Encoding.read, readFloat_eq four accepted] at read
  cases read
  refine ⟨rfl, some mode, rfl, ?_⟩
  rw [encode?_float xlen (five _) (five _) (five _), ← sameMajor,
    ← sameFunct7, roundingBits_of_ofBits? accepted,
    rWord_of_fields small]

theorem recovers_move
    {destinations sources : Bank}
    {funct7 : Nat}
    (fixed : (Encoding.move destinations sources funct7).Matches word.value)
    (read :
      (Encoding.move destinations sources funct7).read xlen word =
        .ok result) :
    (Encoding.move destinations sources funct7).Recovers xlen word
      result := by
  have small := value_lt_of_size four
  have five := fun start => bitField_lt word.value start 5
  have sameMajor : bitField word.value 0 7 = floatMajor :=
    fixed.field (by simp [tests])
  have noMode : bitField word.value 12 3 = 0 :=
    fixed.field (by simp [tests])
  have noSecond : bitField word.value 20 5 = 0 :=
    fixed.field (by simp [tests])
  have sameFunct7 : bitField word.value 25 7 = funct7 :=
    fixed.field (by simp [tests])
  have whole := rWord_of_fields small
  rw [sameMajor, noMode, noSecond, sameFunct7] at whole
  rw [Encoding.read, readMove_eq four] at read
  cases read
  refine ⟨rfl, none, rfl, ?_⟩
  rw [reading, encode?_move xlen (five _) (five _), whole]

theorem recovers_bare
    {value : Nat}
    (fixed : (Encoding.bare value).Matches word.value)
    (read : (Encoding.bare value).read xlen word = .ok result) :
    (Encoding.bare value).Recovers xlen word result := by
  have small := value_lt_of_size four
  have sameWord : bitField word.value 0 32 = value :=
    fixed.field (by simp [tests])
  cases read
  refine ⟨rfl, none, rfl, ?_⟩
  rw [← sameWord, bitField_zero_of_lt small]
  rfl

end Recovers

/-- What is read from a word that has the fixed fields is encoded in it. -/
theorem recovers_of_read
    {xlen : Xlen}
    {encoding : Encoding}
    (sound : encoding.wellFormed)
    {word : Word}
    (four : word.size = 4)
    (fixed : encoding.Matches word.value)
    {result : Reading}
    (read : encoding.read xlen word = .ok result) :
    encoding.Recovers xlen word result := by
  cases encoding with
  | upper major => exact recovers_upper four fixed read
  | jump major => exact recovers_jump four fixed read
  | branch funct3 => exact recovers_branch four fixed read
  | load bank major funct3 size => exact recovers_load four sound fixed read
  | store bank major funct3 size => exact recovers_store four sound fixed read
  | constant major funct3 => exact recovers_constant four fixed read
  | shift bits major funct3 selector =>
      exact recovers_shift four sound fixed read
  | registers major funct3 funct7 => exact recovers_registers four fixed read
  | control funct3 => exact recovers_control four fixed read
  | controlConstant funct3 => exact recovers_controlConstant four fixed read
  | float funct7 => exact recovers_float four fixed read
  | move destinations sources funct7 => exact recovers_move four fixed read
  | bare value => exact recovers_bare four fixed read

end MachineCode.RiscV.Encoding
