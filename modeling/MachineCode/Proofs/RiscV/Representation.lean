import MachineCode.Proofs.RiscV.Codec

/-!
# Encoding, then reading

Operands in range are encoded in a word of 32 bits that has the fixed fields
of the encoding, and the reader of the encoding gives the same operands. There
is one lemma for each encoding.
-/

namespace MachineCode.RiscV.Encoding

/-- The fixed parts of an encoding fit into their fields. -/
theorem lt_of_wellFormed
    {encoding : Encoding}
    (sound : encoding.wellFormed)
    {start length value : Nat}
    (member : .field start length value ∈ encoding.tests) :
    value < 2 ^ length := by
  have fits := List.all_eq_true.mp (Bool.and_eq_true_iff.mp sound).1 _ member
  rwa [Guard.fits, decide_eq_true_eq] at fits

/-- The word of an encoding with operands: it is read as these operands. -/
def Represents
    (xlen : Xlen)
    (address : Address)
    (encoding : Encoding)
    (operands : List Operand)
    (mode : Option RoundingMode)
    (value : Nat) :
    Prop :=
  value < 2 ^ 32 ∧ encoding.Matches value ∧
    ∀ word : Word,
      word.size = 4 → word.address = address → word.value = value →
        encoding.read xlen word =
          .ok { operands, specifics := .riscV mode }

section Represents

variable {xlen : Xlen} {address : Address}

theorem represents_upper
    {major destination upper : Nat}
    (sound : (Encoding.upper major).wellFormed)
    (destinationSmall : destination < 32)
    (upperSmall : upper < 2 ^ 20) :
    (Encoding.upper major).Represents xlen address
      [Bank.integer.operand xlen destination, .unsigned upper 20]
      none (uWord major destination upper) := by
  have majorSmall : major < 2 ^ 7 :=
    lt_of_wellFormed sound (List.mem_cons_self ..)
  rcases uWord_fields majorSmall destinationSmall upperSmall with
    ⟨sameMajor, sameDestination, sameUpper⟩
  refine ⟨join_lt _, ?_, ?_⟩
  · simp [Matches, tests, Guard.holds, sameMajor]
  · rintro word four rfl same
    rw [Encoding.read, readUpper_eq four, same, sameDestination,
      sameUpper, reading]

theorem represents_jump
    {major link : Nat}
    {offset : Int}
    (sound : (Encoding.jump major).wellFormed)
    (linkSmall : link < 32)
    (even : 2 ∣ offset)
    (low : -2 ^ 20 ≤ offset)
    (high : offset < 2 ^ 20) :
    (Encoding.jump major).Represents xlen address
      [Bank.integer.operand xlen link, targetAt address offset]
      none (jWord major link (twosComplement offset 21)) := by
  have majorSmall : major < 2 ^ 7 :=
    lt_of_wellFormed sound (List.mem_cons_self ..)
  rcases
      jWord_fields majorSmall linkSmall
        (two_dvd_twosComplement even) (twosComplement_lt offset 21) with
    ⟨sameMajor, sameLink, sameOffset⟩
  refine ⟨join_lt _, ?_, ?_⟩
  · simp [Matches, tests, Guard.holds, sameMajor]
  · rintro word four rfl same
    rw [Encoding.read, readJump_eq four, same, sameLink, sameOffset,
      signExtend_twosComplement (by decide) low high, reading]

theorem represents_branch
    {funct3 first second : Nat}
    {offset : Int}
    (sound : (Encoding.branch funct3).wellFormed)
    (firstSmall : first < 32)
    (secondSmall : second < 32)
    (even : 2 ∣ offset)
    (low : -2 ^ 12 ≤ offset)
    (high : offset < 2 ^ 12) :
    (Encoding.branch funct3).Represents xlen address
      [Bank.integer.operand xlen first, Bank.integer.operand xlen second,
        targetAt address offset]
      none
      (bWord branchMajor funct3 first second (twosComplement offset 13)) := by
  have funct3Small : funct3 < 2 ^ 3 :=
    @lt_of_wellFormed _ sound 12 3 _ (by simp [tests])
  obtain ⟨sameMajor, sameFunct3, sameFirst, sameSecond, sameOffset⟩ :=
    @bWord_fields branchMajor funct3 first second (by decide)
      funct3Small _ firstSmall secondSmall (two_dvd_twosComplement even)
      (twosComplement_lt offset 13)
  refine ⟨join_lt _, ?_, ?_⟩
  · simp [Matches, tests, Guard.holds, sameMajor, sameFunct3]
  · rintro word four rfl same
    rw [Encoding.read, readBranch_eq four, same, sameFirst, sameSecond,
      sameOffset, signExtend_twosComplement (by decide) low high,
      reading]

theorem represents_load
    {bank : Bank}
    {major funct3 size destination base : Nat}
    {displacement : Int}
    (sound : (Encoding.load bank major funct3 size).wellFormed)
    (destinationSmall : destination < 32)
    (baseSmall : base < 32)
    (low : -2 ^ 11 ≤ displacement)
    (high : displacement < 2 ^ 11) :
    (Encoding.load bank major funct3 size).Represents xlen address
      [bank.operand xlen destination, memoryAt xlen base displacement size]
      none
      (iWord major destination funct3 base
        (twosComplement displacement 12)) := by
  have majorSmall : major < 2 ^ 7 :=
    @lt_of_wellFormed _ sound 0 7 _ (by simp [tests])
  have funct3Small : funct3 < 2 ^ 3 :=
    @lt_of_wellFormed _ sound 12 3 _ (by simp [tests])
  have named := (Bool.and_eq_true_iff.mp sound).2
  rw [decide_eq_true_eq] at named
  rcases
      iWord_fields majorSmall funct3Small destinationSmall baseSmall
        (twosComplement_lt displacement 12) with
    ⟨sameMajor, sameDestination, sameFunct3, sameBase, sameDisplacement⟩
  have sizeBits :=
    @bitField_bitField
      (iWord major destination funct3 base
        (twosComplement displacement 12))
      12 3 0 2 (by decide)
  rw [sameFunct3] at sizeBits
  refine ⟨join_lt _, ?_, ?_⟩
  · simp [Matches, tests, Guard.holds, sameMajor, sameFunct3]
  · rintro word four rfl same
    rw [Encoding.read, readLoad_eq four, same, sameDestination, sameBase,
      sameDisplacement, signExtend_twosComplement (by decide) low high,
      ← sizeBits, ← named, reading]

theorem represents_store
    {bank : Bank}
    {major funct3 size source base : Nat}
    {displacement : Int}
    (sound : (Encoding.store bank major funct3 size).wellFormed)
    (sourceSmall : source < 32)
    (baseSmall : base < 32)
    (low : -2 ^ 11 ≤ displacement)
    (high : displacement < 2 ^ 11) :
    (Encoding.store bank major funct3 size).Represents xlen address
      [bank.operand xlen source, memoryAt xlen base displacement size]
      none
      (sWord major funct3 base source (twosComplement displacement 12)) := by
  have majorSmall : major < 2 ^ 7 :=
    @lt_of_wellFormed _ sound 0 7 _ (by simp [tests])
  have funct3Small : funct3 < 2 ^ 3 :=
    @lt_of_wellFormed _ sound 12 3 _ (by simp [tests])
  have named := (Bool.and_eq_true_iff.mp sound).2
  rw [decide_eq_true_eq] at named
  rcases
      sWord_fields majorSmall funct3Small baseSmall sourceSmall
        (twosComplement_lt displacement 12) with
    ⟨sameMajor, sameFunct3, sameBase, sameSource, sameDisplacement⟩
  have sizeBits :=
    @bitField_bitField
      (sWord major funct3 base source (twosComplement displacement 12))
      12 3 0 2 (by decide)
  rw [sameFunct3] at sizeBits
  refine ⟨join_lt _, ?_, ?_⟩
  · simp [Matches, tests, Guard.holds, sameMajor, sameFunct3]
  · rintro word four rfl same
    rw [Encoding.read, readStore_eq four, same, sameSource, sameBase,
      sameDisplacement, signExtend_twosComplement (by decide) low high,
      ← sizeBits, ← named, reading]

theorem represents_constant
    {major funct3 destination source : Nat}
    {constant : Int}
    (sound : (Encoding.constant major funct3).wellFormed)
    (destinationSmall : destination < 32)
    (sourceSmall : source < 32)
    (low : -2 ^ 11 ≤ constant)
    (high : constant < 2 ^ 11) :
    (Encoding.constant major funct3).Represents xlen address
      [Bank.integer.operand xlen destination,
        Bank.integer.operand xlen source, .signed constant 12]
      none
      (iWord major destination funct3 source
        (twosComplement constant 12)) := by
  have majorSmall : major < 2 ^ 7 :=
    @lt_of_wellFormed _ sound 0 7 _ (by simp [tests])
  have funct3Small : funct3 < 2 ^ 3 :=
    @lt_of_wellFormed _ sound 12 3 _ (by simp [tests])
  rcases
      iWord_fields majorSmall funct3Small destinationSmall sourceSmall
        (twosComplement_lt constant 12) with
    ⟨sameMajor, sameDestination, sameFunct3, sameSource, sameConstant⟩
  refine ⟨join_lt _, ?_, ?_⟩
  · simp [Matches, tests, Guard.holds, sameMajor, sameFunct3]
  · rintro word four rfl same
    rw [Encoding.read, readConstant_eq four, same, sameDestination,
      sameSource, sameConstant, Operand.signedField,
      signExtend_twosComplement (by decide) low high, reading]

theorem represents_shift
    {bits major funct3 selector destination source amount : Nat}
    (sound : (Encoding.shift bits major funct3 selector).wellFormed)
    (destinationSmall : destination < 32)
    (sourceSmall : source < 32)
    (amountSmall : amount < 2 ^ bits) :
    (Encoding.shift bits major funct3 selector).Represents xlen address
      [Bank.integer.operand xlen destination,
        Bank.integer.operand xlen source, .unsigned amount bits]
      none
      (shiftWord bits major destination funct3 source amount selector) := by
  have majorSmall : major < 2 ^ 7 :=
    @lt_of_wellFormed _ sound 0 7 _ (by simp [tests])
  have funct3Small : funct3 < 2 ^ 3 :=
    @lt_of_wellFormed _ sound 12 3 _ (by simp [tests])
  have selectorSmall : selector < 2 ^ (12 - bits) :=
    @lt_of_wellFormed _ sound (20 + bits) (12 - bits) _ (by simp [tests])
  have amountBits := (Bool.and_eq_true_iff.mp sound).2
  rw [Bool.and_eq_true, decide_eq_true_eq, decide_eq_true_eq]
    at amountBits
  rcases amountBits with ⟨positive, narrow⟩
  rcases
      shiftWord_fields majorSmall funct3Small destinationSmall sourceSmall
        amountSmall selectorSmall with
    ⟨sameMajor, sameDestination, sameFunct3, sameSource, sameAmount,
      sameSelector⟩
  have small :=
    join_lt
      [(7, major), (5, destination), (3, funct3), (5, source),
        (bits, amount), (12 - bits, selector)]
  have whole : 7 + (5 + (3 + (5 + (bits + (12 - bits + 0))))) = 32 := by
    omega
  simp only [List.map_cons, List.map_nil, List.sum_cons, List.sum_nil,
    whole] at small
  refine ⟨small, ?_, ?_⟩
  · simp [Matches, tests, Guard.holds, sameMajor, sameFunct3,
      sameSelector]
  · rintro word four rfl same
    rw [Encoding.read,
      readShift_eq four (Nat.ne_of_gt positive) (by omega), same,
      sameDestination, sameSource, sameAmount, reading]

theorem represents_registers
    {major funct3 funct7 destination first second : Nat}
    (sound : (Encoding.registers major funct3 funct7).wellFormed)
    (destinationSmall : destination < 32)
    (firstSmall : first < 32)
    (secondSmall : second < 32) :
    (Encoding.registers major funct3 funct7).Represents xlen address
      [Bank.integer.operand xlen destination,
        Bank.integer.operand xlen first, Bank.integer.operand xlen second]
      none (rWord major destination funct3 first second funct7) := by
  have majorSmall : major < 2 ^ 7 :=
    @lt_of_wellFormed _ sound 0 7 _ (by simp [tests])
  have funct3Small : funct3 < 2 ^ 3 :=
    @lt_of_wellFormed _ sound 12 3 _ (by simp [tests])
  have funct7Small : funct7 < 2 ^ 7 :=
    @lt_of_wellFormed _ sound 25 7 _ (by simp [tests])
  rcases
      rWord_fields majorSmall funct3Small destinationSmall firstSmall
        secondSmall funct7Small with
    ⟨sameMajor, sameDestination, sameFunct3, sameFirst, sameSecond,
      sameFunct7⟩
  refine ⟨join_lt _, ?_, ?_⟩
  · simp [Matches, tests, Guard.holds, sameMajor, sameFunct3, sameFunct7]
  · rintro word four rfl same
    simp only [Encoding.read, readThree_eq four, same, sameDestination,
      sameFirst, sameSecond]
    rfl

theorem represents_control
    {funct3 destination source number : Nat}
    (sound : (Encoding.control funct3).wellFormed)
    (destinationSmall : destination < 32)
    (sourceSmall : source < 32)
    (numberSmall : number < 2 ^ 12) :
    (Encoding.control funct3).Represents xlen address
      [Bank.integer.operand xlen destination,
        .systemRegister (controlRegister number),
        Bank.integer.operand xlen source]
      none (iWord systemMajor destination funct3 source number) := by
  have funct3Small : funct3 < 2 ^ 3 :=
    @lt_of_wellFormed _ sound 12 3 _ (by simp [tests])
  obtain ⟨sameMajor, sameDestination, sameFunct3, sameSource,
      sameNumber⟩ :=
    @iWord_fields systemMajor destination funct3 source (by decide)
      funct3Small number destinationSmall sourceSmall numberSmall
  refine ⟨join_lt _, ?_, ?_⟩
  · simp [Matches, tests, Guard.holds, sameMajor, sameFunct3]
  · rintro word four rfl same
    rw [Encoding.read, readControl_eq four, same, sameDestination,
      sameSource, sameNumber, reading]

theorem represents_controlConstant
    {funct3 destination constant number : Nat}
    (sound : (Encoding.controlConstant funct3).wellFormed)
    (destinationSmall : destination < 32)
    (constantSmall : constant < 2 ^ 5)
    (numberSmall : number < 2 ^ 12) :
    (Encoding.controlConstant funct3).Represents xlen address
      [Bank.integer.operand xlen destination,
        .systemRegister (controlRegister number), .unsigned constant 5]
      none (iWord systemMajor destination funct3 constant number) := by
  have funct3Small : funct3 < 2 ^ 3 :=
    @lt_of_wellFormed _ sound 12 3 _ (by simp [tests])
  obtain ⟨sameMajor, sameDestination, sameFunct3, sameConstant,
      sameNumber⟩ :=
    @iWord_fields systemMajor destination funct3 constant (by decide)
      funct3Small number destinationSmall constantSmall numberSmall
  refine ⟨join_lt _, ?_, ?_⟩
  · simp [Matches, tests, Guard.holds, sameMajor, sameFunct3]
  · rintro word four rfl same
    rw [Encoding.read, readControlConstant_eq four, same,
      sameDestination, sameConstant, sameNumber, reading]

theorem represents_float
    {funct7 destination first second : Nat}
    (sound : (Encoding.float funct7).wellFormed)
    (mode : RoundingMode)
    (destinationSmall : destination < 32)
    (firstSmall : first < 32)
    (secondSmall : second < 32) :
    (Encoding.float funct7).Represents xlen address
      [Bank.floating.operand xlen destination,
        Bank.floating.operand xlen first, Bank.floating.operand xlen second]
      (some mode)
      (rWord floatMajor destination (roundingBits mode) first second
        funct7) := by
  have funct7Small : funct7 < 2 ^ 7 :=
    @lt_of_wellFormed _ sound 25 7 _ (by simp [tests])
  obtain ⟨sameMajor, sameDestination, sameMode, sameFirst, sameSecond,
      sameFunct7⟩ :=
    @rWord_fields floatMajor destination (roundingBits mode) first second
      (by decide) (roundingBits_lt mode) funct7 destinationSmall
      firstSmall secondSmall funct7Small
  refine ⟨join_lt _, ?_, ?_⟩
  · simp [Matches, tests, Guard.holds, sameMajor, sameFunct7]
  · rintro word four rfl same
    have accepted :
        RoundingMode.ofBits? (bitField word.value 12 3) = some mode := by
      rw [same, sameMode, ofBits?_roundingBits]
    rw [Encoding.read, readFloat_eq four accepted, same, sameDestination,
      sameFirst, sameSecond]

theorem represents_move
    {destinations sources : Bank}
    {funct7 destination source : Nat}
    (sound : (Encoding.move destinations sources funct7).wellFormed)
    (destinationSmall : destination < 32)
    (sourceSmall : source < 32) :
    (Encoding.move destinations sources funct7).Represents xlen address
      [destinations.operand xlen destination, sources.operand xlen source]
      none (rWord floatMajor destination 0 source 0 funct7) := by
  have funct7Small : funct7 < 2 ^ 7 :=
    @lt_of_wellFormed _ sound 25 7 _ (by simp [tests])
  obtain ⟨sameMajor, sameDestination, noMode, sameSource, noSecond,
      sameFunct7⟩ :=
    @rWord_fields floatMajor destination 0 source 0 (by decide)
      (by decide) funct7 destinationSmall sourceSmall (by decide)
      funct7Small
  refine ⟨join_lt _, ?_, ?_⟩
  · simp [Matches, tests, Guard.holds, sameMajor, noMode, noSecond,
      sameFunct7]
  · rintro word four rfl same
    rw [Encoding.read, readMove_eq four, same, sameDestination,
      sameSource, reading]

theorem represents_bare
    {value : Nat}
    (sound : (Encoding.bare value).wellFormed) :
    (Encoding.bare value).Represents xlen address
      []
      none value := by
  have small : value < 2 ^ 32 :=
    @lt_of_wellFormed _ sound 0 32 _ (by simp [tests])
  refine ⟨small, ?_, ?_⟩
  · simp [Matches, tests, Guard.holds, bitField_zero_of_lt small]
  · rintro word four rfl same
    rfl

end Represents

/-- Operands in range are encoded in a word that is read as these operands. -/
theorem exists_encode?_of_fits
    {xlen : Xlen}
    {address : Address}
    {encoding : Encoding}
    (sound : encoding.wellFormed)
    {operands : List Operand}
    {mode : Option RoundingMode}
    (fits : encoding.Fits xlen address operands mode) :
    ∃ value,
      encoding.encode? xlen operands mode = some value ∧
        encoding.Represents xlen address operands mode value := by
  cases fits with
  | upper destinationSmall upperSmall =>
      exact ⟨_, encode?_upper xlen destinationSmall ..,
        represents_upper sound destinationSmall upperSmall⟩
  | jump linkSmall even low high =>
      exact ⟨_, encode?_jump xlen linkSmall ..,
        represents_jump sound linkSmall even low high⟩
  | branch firstSmall secondSmall even low high =>
      exact ⟨_, encode?_branch xlen firstSmall secondSmall ..,
        represents_branch sound firstSmall secondSmall even low high⟩
  | load destinationSmall baseSmall low high =>
      exact ⟨_, encode?_load xlen destinationSmall baseSmall ..,
        represents_load sound destinationSmall baseSmall low high⟩
  | store sourceSmall baseSmall low high =>
      exact ⟨_, encode?_store xlen baseSmall sourceSmall ..,
        represents_store sound sourceSmall baseSmall low high⟩
  | constant destinationSmall sourceSmall low high =>
      exact ⟨_, encode?_constant xlen destinationSmall sourceSmall ..,
        represents_constant sound destinationSmall sourceSmall low high⟩
  | shift destinationSmall sourceSmall amountSmall =>
      exact ⟨_, encode?_shift xlen destinationSmall sourceSmall ..,
        represents_shift sound destinationSmall sourceSmall amountSmall⟩
  | registers destinationSmall firstSmall secondSmall =>
      exact ⟨_,
        encode?_registers xlen destinationSmall firstSmall secondSmall ..,
        represents_registers sound destinationSmall firstSmall secondSmall⟩
  | control destinationSmall sourceSmall numberSmall =>
      exact ⟨_, encode?_control xlen destinationSmall sourceSmall ..,
        represents_control sound destinationSmall sourceSmall numberSmall⟩
  | controlConstant destinationSmall constantSmall numberSmall =>
      exact ⟨_, encode?_controlConstant xlen destinationSmall ..,
        represents_controlConstant sound destinationSmall constantSmall
          numberSmall⟩
  | float mode destinationSmall firstSmall secondSmall =>
      exact ⟨_, encode?_float xlen destinationSmall firstSmall secondSmall ..,
        represents_float sound mode destinationSmall firstSmall secondSmall⟩
  | move destinationSmall sourceSmall =>
      exact ⟨_, encode?_move xlen destinationSmall sourceSmall ..,
        represents_move sound destinationSmall sourceSmall⟩
  | bare =>
      exact ⟨_, rfl, represents_bare sound⟩

end MachineCode.RiscV.Encoding
