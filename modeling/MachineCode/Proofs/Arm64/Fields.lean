import MachineCode.Proofs.Arm64.LogicalImmediate
import MachineCode.Proofs.Arm64.Operands
import MachineCode.Proofs.Bits
import MachineCode.Proofs.Table.Twins

/-!
# The fields that operands determine

The operands of a word tell the fields that its format has read. Two words
whose operands are the same have the same bits in all of these fields; there
is one lemma for each way of reading, assembled from lemmas on what a single
operand tells (`sameFields_of_read`).

Two formats do not look at all the bits they are given: a pattern does not
tell the bits of its rotation above the period, and the index of a byte is
scaled by one in any case.
-/

namespace MachineCode.Arm64

/-! ## Single operands -/

theorem number_eq_of_generalRegister
    {address wide otherAddress otherWide : Bool}
    {number other : Nat}
    (small : number < 32)
    (otherSmall : other < 32)
    (same :
      generalRegister address wide number =
        generalRegister otherAddress otherWide other) :
    number = other := by
  have sameId := congrArg Register.id same
  simp only [generalRegister_id, stackPointer, Bool.and_eq_true,
    decide_eq_true_eq] at sameId
  split at sameId <;> split at sameId <;> omega

theorem wide_eq_of_generalRegister
    {address wide otherAddress otherWide : Bool}
    {number other : Nat}
    (same :
      generalRegister address wide number =
        generalRegister otherAddress otherWide other) :
    wide = otherWide := by
  have sameSize := congrArg Register.size same
  rw [generalRegister_size, generalRegister_size] at sameSize
  cases wide <;> cases otherWide
  · rfl
  · exact absurd sameSize (by decide)
  · exact absurd sameSize (by decide)
  · rfl

/-- The field of a target's distance is told by the offset alone. -/
theorem raw_eq_of_relativeField
    {raw other bits : Nat}
    {scale : Int}
    {address otherAddress alignment otherAlignment : Address}
    (narrow : bits ≤ 32)
    (positive : 0 < scale)
    (small : scale ≤ 2 ^ 31)
    (inside : raw < 2 ^ bits)
    (otherInside : other < 2 ^ bits)
    (same :
      Operand.relativeField raw bits scale address alignment =
        .relativeField other bits scale otherAddress otherAlignment) :
    raw = other := by
  have scaled (field : Nat) :
      relativeOffset field bits scale = signExtend field bits * scale :=
    @relativeOffset_eq_mul field bits 31 scale narrow (by decide) positive
      (by omega)
  have sameOffset := (Operand.relative.inj same).1
  rw [scaled, scaled] at sameOffset
  have sameSigned :=
    Int.eq_of_mul_eq_mul_right (Int.ne_of_gt positive) sameOffset
  rw [← twosComplement_signExtend_of_lt (by omega) inside, sameSigned,
    twosComplement_signExtend_of_lt (by omega) otherInside]

section Operands

variable {left right start length : Nat}

theorem sameField_of_register
    {address wide otherAddress otherWide : Bool}
    (same :
      generalRegister address wide (bitField left start 5) =
        generalRegister otherAddress otherWide (bitField right start 5)) :
    SameField left right (start, 5) :=
  number_eq_of_generalRegister (bitField_five_lt ..) (bitField_five_lt ..)
    same

theorem sameField_of_unsigned
    {size : Nat}
    (same :
      Operand.unsigned (bitField left start length) size =
        .unsigned (bitField right start length) size) :
    SameField left right (start, length) := by
  rw [Operand.unsigned, Operand.unsigned, Operand.immediate.injEq,
    Immediate.mk.injEq] at same
  exact Int.ofNat.inj same.1

theorem sameField_of_signExtend
    (narrow : length ≤ 64)
    (same :
      signExtend (bitField left start length) length =
        signExtend (bitField right start length) length) :
    SameField left right (start, length) := by
  rw [SameField,
    ← twosComplement_signExtend_of_lt narrow (bitField_lt left start length),
    same, twosComplement_signExtend_of_lt narrow (bitField_lt ..)]

theorem sameField_of_target
    {address otherAddress : Address}
    (narrow : length ≤ 32)
    (same :
      Operand.relativeField (bitField left start length) length 4 address
          0 =
        .relativeField (bitField right start length) length 4 otherAddress
          0) :
    SameField left right (start, length) :=
  raw_eq_of_relativeField narrow (by decide) (by decide) (bitField_lt ..)
    (bitField_lt ..) same

theorem sameField_of_two_pow
    (same : 2 ^ bitField left start length = 2 ^ bitField right start length) :
    SameField left right (start, length) :=
  (Nat.pow_right_inj (by decide)).mp same

/-- The precision is told by the width of a register. -/
theorem sameField_of_floatBits?
    {size : Nat}
    (leftSize : floatBits? (bitField left start 2) = some size)
    (rightSize : floatBits? (bitField right start 2) = some size) :
    SameField left right (start, 2) := by
  have each :
      ∀ precision < 4, ∀ other < 4,
        (floatBits? precision).isSome →
          floatBits? precision = floatBits? other → precision = other := by
    decide
  exact each _ (bitField_lt left start 2) _ (bitField_lt right start 2)
    (by rw [leftSize]; rfl) (leftSize.trans rightSize.symm)

theorem sameField_of_floatRegister
    {size otherSize : Nat}
    (same :
      floatRegister size (bitField left start 5) =
        floatRegister otherSize (bitField right start 5)) :
    SameField left right (start, 5) :=
  Nat.add_left_cancel (congrArg Register.id same)

/-- The eight bits from which a constant has been expanded. -/
theorem sameField_of_float
    (same :
      Binary64.ofImmediate8 (bitField left start 8) =
        .ofImmediate8 (bitField right start 8)) :
    SameField left right (start, 8) := by
  let contract (value : Binary64) : Nat :=
    bitField value.bits.toNat 48 6 + 64 * bitField value.bits.toNat 61 1 +
      128 * bitField value.bits.toNat 63 1
  have each :
      ∀ constant < 256,
        contract (.ofImmediate8 constant) = constant := by
    decide +kernel
  rw [SameField, ← each _ (bitField_lt left start 8), same,
    each _ (bitField_lt right start 8)]

theorem sameField_of_condition
    (same :
      conditionOfCode (bitField left start 4) =
        conditionOfCode (bitField right start 4)) :
    SameField left right (start, 4) := by
  have each :
      ∀ code < 16, ∀ other < 16,
        conditionOfCode code = conditionOfCode other → code = other := by
    decide
  exact each _ (bitField_lt left start 4) _ (bitField_lt right start 4) same

end Operands

/-! ## Formats -/

namespace Format

/--
The fields that the operands of a format determine, each by its start and its
length, in words of one opcode.
-/
def fields : Format → List (Nat × Nat)
  | .nearAddress => [(0, 5), (5, 19), (29, 2)]
  | .addConstant => [(0, 5), (5, 5), (10, 12), (22, 1), (31, 1)]
  | .logicalConstant => [(0, 5), (5, 5), (10, 6), (22, 1), (31, 1)]
  | .wideMove => [(0, 5), (5, 16), (21, 2), (31, 1)]
  | .bitfield => [(0, 5), (5, 5), (10, 6), (16, 6), (22, 1), (31, 1)]
  | .extract => [(0, 5), (5, 5), (10, 6), (16, 5), (22, 1), (31, 1)]
  | .branch => [(0, 26)]
  | .conditionalBranch => [(5, 19)]
  | .compareBranch => [(0, 5), (5, 19), (31, 1)]
  | .testBranch => [(0, 5), (5, 14), (19, 5), (31, 1)]
  | .branchRegister => [(5, 5)]
  | .bare => []
  | .exception => [(5, 16)]
  | .hint => [(5, 7)]
  | .fromSystem | .toSystem => [(0, 5), (5, 16)]
  | .literal => [(0, 5), (5, 19), (30, 1)]
  | .pair => [(0, 5), (5, 5), (10, 5), (15, 7), (23, 2), (30, 2)]
  | .unsignedOffset => [(0, 5), (5, 5), (10, 12), (30, 2)]
  | .indexed => [(0, 5), (5, 5), (10, 2), (12, 9), (30, 2)]
  | .registerOffset => [(0, 5), (5, 5), (13, 3), (16, 5), (30, 2)]
  | .exclusive => [(0, 5), (5, 5), (30, 1)]
  | .exclusiveStore => [(0, 5), (5, 5), (16, 5), (30, 1)]
  | .structures => [(0, 5), (5, 5), (10, 2), (12, 4), (30, 1)]
  | .structuresUpdating =>
    [(0, 5), (5, 5), (10, 2), (12, 4), (30, 1), (16, 5)]
  | .logicalRegister | .addRegister =>
    [(0, 5), (5, 5), (10, 6), (16, 5), (22, 2), (31, 1)]
  | .select => [(0, 5), (5, 5), (12, 4), (16, 5), (31, 1)]
  | .twoSources => [(0, 5), (5, 5), (16, 5), (31, 1)]
  | .threeSources => [(0, 5), (5, 5), (16, 5), (31, 1), (10, 5)]
  | .floatConstant => [(0, 5), (13, 8), (22, 2)]
  | .floatArithmetic => [(0, 5), (5, 5), (16, 5), (22, 2)]

/-- The fields that the operands determine only in part. -/
def blurred : Format → List (Nat × Nat)
  | .logicalConstant => [(16, 6)]
  | .registerOffset => [(12, 1)]
  | _ => []

/-- What is known of the words that are read in a format. -/
def demands : Format → List Guard
  | .literal => [.otherField 30 2 3]
  | .pair => [.otherField 23 2 0]
  | .indexed => [.field 10 1 1]
  | _ => []

end Format

/-- The logarithm of the period of the pattern that a word encodes. -/
def periodExponent (word : Nat) : Nat :=
  BitPattern.exponent (bitField word 22 1) (bitField word 10 6)

section Words

variable
  {left right : Word}
  (leftFour : left.size = 4)
  (rightFour : right.size = 4)
  {first second : Reading}
  (same : first.operands = second.operands)
include leftFour rightFour same

/-! ### Formats with a constant -/

theorem sameFields_nearAddress
    (sameFlag : left.value.testBit 31 = right.value.testBit 31)
    (leftRead : readNearAddress left = .ok first)
    (rightRead : readNearAddress right = .ok second) :
    ∀ field ∈ Format.nearAddress.fields,
      SameField left.value right.value field := by
  rw [readNearAddress_eq leftFour] at leftRead
  rw [readNearAddress_eq rightFour, ← sameFlag] at rightRead
  cases leftRead
  cases rightRead
  simp only [reading, List.cons.injEq, Operand.register.injEq] at same
  rcases same with ⟨destination, target, -⟩
  have distance_lt (word : Nat) :
      4 * bitField word 5 19 + bitField word 29 2 < 2 ^ 21 := by
    have high := bitField_lt word 5 19
    have low := bitField_lt word 29 2
    omega
  have sameDistance :
      4 * bitField left.value 5 19 + bitField left.value 29 2 =
        4 * bitField right.value 5 19 + bitField right.value 29 2 := by
    split at target <;>
      exact raw_eq_of_relativeField (by decide) (by decide) (by decide)
        (distance_lt _) (distance_lt _) target
  have leftLow := bitField_lt left.value 29 2
  have rightLow := bitField_lt right.value 29 2
  simp only [Format.fields, List.forall_mem_cons]
  refine ⟨sameField_of_register destination, ?_, ?_, by simp⟩
  · rw [sameField_iff]
    omega
  · rw [sameField_iff]
    omega

theorem sameFields_addConstant
    (leftRead : readAddConstant left = .ok first)
    (rightRead : readAddConstant right = .ok second) :
    ∀ field ∈ Format.addConstant.fields,
      SameField left.value right.value field := by
  rw [readAddConstant_eq leftFour] at leftRead
  rw [readAddConstant_eq rightFour] at rightRead
  cases leftRead
  cases rightRead
  simp only [reading, List.cons_append, List.nil_append, List.cons.injEq,
    Operand.register.injEq] at same
  rcases same with ⟨destination, source, constant, shift⟩
  have sameShift : left.value.testBit 22 = right.value.testBit 22 := by
    cases shifted : left.value.testBit 22 <;>
      cases otherShifted : right.value.testBit 22 <;>
      simp [shifted, otherShifted] at shift ⊢
  simp only [Format.fields, List.forall_mem_cons]
  exact
    ⟨sameField_of_register destination, sameField_of_register source,
      sameField_of_unsigned constant, .of_testBit sameShift,
      .of_testBit (wide_eq_of_generalRegister destination), by simp⟩

/--
A pattern tells the bits of its rotation below the period, and all other
fields.
-/
theorem sameFields_logicalConstant
    (leftRead : readLogicalConstant left = .ok first)
    (rightRead : readLogicalConstant right = .ok second) :
    ∀ field ∈
        (16, periodExponent left.value) :: Format.logicalConstant.fields,
      SameField left.value right.value field := by
  rcases exists_pattern_of_readLogicalConstant leftFour leftRead with
    ⟨leftPattern, leftEncoded, leftFits, -, rfl⟩
  rcases exists_pattern_of_readLogicalConstant rightFour rightRead with
    ⟨rightPattern, rightEncoded, rightFits, -, rfl⟩
  simp only [reading, List.cons.injEq, Operand.register.injEq] at same
  rcases same with ⟨destination, source, constant, -⟩
  have wide := wide_eq_of_generalRegister source
  rw [← wide] at rightFits constant
  have sameValue :=
    Int.ofNat.inj (congrArg Immediate.value (Operand.immediate.inj constant))
  obtain ⟨logarithm, narrow, width⟩ :
      ∃ logarithm ≤ 6,
        generalBits (left.value.testBit 31) = 2 ^ logarithm := by
    cases left.value.testBit 31 with
    | false => exact ⟨5, by decide, rfl⟩
    | true => exact ⟨6, by decide, rfl⟩
  rw [width] at leftFits rightFits sameValue
  cases BitPattern.eq_of_value_eq
    (BitPattern.proper_of_ofFields? leftEncoded)
    (BitPattern.proper_of_ofFields? rightEncoded)
    (Nat.two_pow_pos logarithm)
    (BitPattern.period_dvd_of_ofFields? leftEncoded leftFits)
    (BitPattern.period_dvd_of_ofFields? rightEncoded rightFits) sameValue
  rcases BitPattern.fields_eq (bitField_lt left.value 22 1)
      (bitField_lt right.value 22 1) (bitField_lt left.value 10 6)
      (bitField_lt right.value 10 6) leftEncoded rightEncoded with
    ⟨sameN, sameS, sameRotation⟩
  have sixBits : periodExponent left.value ≤ 6 := by
    rcases BitPattern.eq_of_ofFields? leftEncoded with ⟨-, -, rfl⟩
    exact Nat.le_trans
      ((Nat.pow_le_pow_iff_right (by decide)).mp leftFits) narrow
  have rotation :
      SameField left.value right.value (16, periodExponent left.value) := by
    have divides := Nat.pow_dvd_pow 2 sixBits
    rw [← periodExponent, bitField, bitField, Nat.mod_mod_of_dvd _ divides,
      Nat.mod_mod_of_dvd _ divides] at sameRotation
    exact sameRotation
  simp only [Format.fields, List.forall_mem_cons]
  exact
    ⟨rotation, sameField_of_register destination,
      sameField_of_register source, sameS, sameN, .of_testBit wide, by simp⟩

theorem sameFields_wideMove
    (leftRead : readWideMove left = .ok first)
    (rightRead : readWideMove right = .ok second) :
    ∀ field ∈ Format.wideMove.fields,
      SameField left.value right.value field := by
  rcases eq_of_readWideMove leftFour leftRead with ⟨-, rfl⟩
  rcases eq_of_readWideMove rightFour rightRead with ⟨-, rfl⟩
  simp only [reading, List.cons_append, List.nil_append, List.cons.injEq,
    Operand.register.injEq] at same
  rcases same with ⟨destination, constant, shift⟩
  have samePlace : SameField left.value right.value (21, 2) := by
    rw [sameField_iff]
    split at shift <;> split at shift
    · next zero otherZero => rw [zero, otherZero]
    · cases shift
    · cases shift
    · simp only [List.cons.injEq, Operand.shift.injEq, Shift.mk.injEq]
        at shift
      omega
  simp only [Format.fields, List.forall_mem_cons]
  exact
    ⟨sameField_of_register destination, sameField_of_unsigned constant,
      samePlace, .of_testBit (wide_eq_of_generalRegister destination),
      by simp⟩

theorem sameFields_bitfield
    (leftRead : readBitfield left = .ok first)
    (rightRead : readBitfield right = .ok second) :
    ∀ field ∈ Format.bitfield.fields,
      SameField left.value right.value field := by
  rcases eq_of_readBitfield leftFour leftRead with ⟨leftWide, -, -, rfl⟩
  rcases eq_of_readBitfield rightFour rightRead with ⟨rightWide, -, -, rfl⟩
  simp only [reading, List.cons.injEq, Operand.register.injEq] at same
  rcases same with ⟨destination, source, rotation, highest, -⟩
  have wide := wide_eq_of_generalRegister destination
  simp only [Format.fields, List.forall_mem_cons]
  exact
    ⟨sameField_of_register destination, sameField_of_register source,
      sameField_of_unsigned highest, sameField_of_unsigned rotation,
      .of_testBit (leftWide.trans (wide.trans rightWide.symm)),
      .of_testBit wide, by simp⟩

theorem sameFields_extract
    (leftRead : readExtract left = .ok first)
    (rightRead : readExtract right = .ok second) :
    ∀ field ∈ Format.extract.fields,
      SameField left.value right.value field := by
  rcases eq_of_readExtract leftFour leftRead with ⟨leftWide, rfl⟩
  rcases eq_of_readExtract rightFour rightRead with ⟨rightWide, rfl⟩
  simp only [reading, List.cons.injEq, Operand.register.injEq] at same
  rcases same with ⟨destination, high, low, distance, -⟩
  have wide := wide_eq_of_generalRegister destination
  simp only [Format.fields, List.forall_mem_cons]
  exact
    ⟨sameField_of_register destination, sameField_of_register high,
      sameField_of_unsigned distance, sameField_of_register low,
      .of_testBit (leftWide.trans (wide.trans rightWide.symm)),
      .of_testBit wide, by simp⟩

/-! ### Branches and the system -/

theorem sameFields_branch
    (leftRead : readBranch left = .ok first)
    (rightRead : readBranch right = .ok second) :
    ∀ field ∈ Format.branch.fields,
      SameField left.value right.value field := by
  rw [readBranch_eq leftFour] at leftRead
  rw [readBranch_eq rightFour] at rightRead
  cases leftRead
  cases rightRead
  simp only [reading, List.cons.injEq] at same
  simp only [Format.fields, List.forall_mem_cons]
  exact ⟨sameField_of_target (by decide) same.1, by simp⟩

theorem sameFields_conditionalBranch
    (leftRead : readConditionalBranch left = .ok first)
    (rightRead : readConditionalBranch right = .ok second) :
    ∀ field ∈ Format.conditionalBranch.fields,
      SameField left.value right.value field := by
  rw [readConditionalBranch_eq leftFour] at leftRead
  rw [readConditionalBranch_eq rightFour] at rightRead
  cases leftRead
  cases rightRead
  simp only [conditionalReading, List.cons.injEq] at same
  simp only [Format.fields, List.forall_mem_cons]
  exact ⟨sameField_of_target (by decide) same.1, by simp⟩

theorem sameFields_compareBranch
    (leftRead : readCompareBranch left = .ok first)
    (rightRead : readCompareBranch right = .ok second) :
    ∀ field ∈ Format.compareBranch.fields,
      SameField left.value right.value field := by
  rw [readCompareBranch_eq leftFour] at leftRead
  rw [readCompareBranch_eq rightFour] at rightRead
  cases leftRead
  cases rightRead
  simp only [reading, List.cons.injEq, Operand.register.injEq] at same
  rcases same with ⟨source, target, -⟩
  simp only [Format.fields, List.forall_mem_cons]
  exact
    ⟨sameField_of_register source, sameField_of_target (by decide) target,
      .of_testBit (wide_eq_of_generalRegister source), by simp⟩

theorem sameFields_testBranch
    (leftRead : readTestBranch left = .ok first)
    (rightRead : readTestBranch right = .ok second) :
    ∀ field ∈ Format.testBranch.fields,
      SameField left.value right.value field := by
  rw [readTestBranch_eq leftFour] at leftRead
  rw [readTestBranch_eq rightFour] at rightRead
  cases leftRead
  cases rightRead
  simp only [reading, List.cons.injEq, Operand.register.injEq,
    Operand.unsigned, Operand.immediate.injEq, Immediate.mk.injEq] at same
  rcases same with ⟨source, ⟨place, -⟩, target, -⟩
  have leftLow := bitField_lt left.value 19 5
  have rightLow := bitField_lt right.value 19 5
  simp only [Format.fields, List.forall_mem_cons]
  refine
    ⟨sameField_of_register source, sameField_of_target (by decide) target,
      ?_, ?_, by simp⟩
  · rw [sameField_iff]
    omega
  · rw [sameField_iff]
    omega

theorem sameFields_branchRegister
    (leftRead : readBranchRegister left = .ok first)
    (rightRead : readBranchRegister right = .ok second) :
    ∀ field ∈ Format.branchRegister.fields,
      SameField left.value right.value field := by
  rw [readBranchRegister_eq leftFour] at leftRead
  rw [readBranchRegister_eq rightFour] at rightRead
  cases leftRead
  cases rightRead
  simp only [reading, List.cons.injEq, Operand.register.injEq] at same
  simp only [Format.fields, List.forall_mem_cons]
  exact ⟨sameField_of_register same.1, by simp⟩

theorem sameField_code
    {length : Nat}
    (nonempty : length ≠ 0)
    (inside : 5 + length ≤ 32)
    (leftRead : readCode length left = .ok first)
    (rightRead : readCode length right = .ok second) :
    SameField left.value right.value (5, length) := by
  rw [readCode_eq leftFour nonempty inside] at leftRead
  rw [readCode_eq rightFour nonempty inside] at rightRead
  cases leftRead
  cases rightRead
  simp only [reading, List.cons.injEq] at same
  exact sameField_of_unsigned same.1

theorem sameFields_fromSystem
    (leftRead : readFromSystem left = .ok first)
    (rightRead : readFromSystem right = .ok second) :
    ∀ field ∈ Format.fromSystem.fields,
      SameField left.value right.value field := by
  rw [readFromSystem_eq leftFour] at leftRead
  rw [readFromSystem_eq rightFour] at rightRead
  cases leftRead
  cases rightRead
  simp only [reading, List.cons.injEq, Operand.register.injEq,
    Operand.systemRegister.injEq] at same
  rcases same with ⟨data, system, -⟩
  simp only [Format.fields, List.forall_mem_cons]
  exact
    ⟨sameField_of_register data, congrArg SystemRegister.encoding system,
      by simp⟩

theorem sameFields_toSystem
    (leftRead : readToSystem left = .ok first)
    (rightRead : readToSystem right = .ok second) :
    ∀ field ∈ Format.toSystem.fields,
      SameField left.value right.value field := by
  rw [readToSystem_eq leftFour] at leftRead
  rw [readToSystem_eq rightFour] at rightRead
  cases leftRead
  cases rightRead
  simp only [reading, List.cons.injEq, Operand.register.injEq,
    Operand.systemRegister.injEq] at same
  rcases same with ⟨system, data, -⟩
  simp only [Format.fields, List.forall_mem_cons]
  exact
    ⟨sameField_of_register data, congrArg SystemRegister.encoding system,
      by simp⟩

end Words

end MachineCode.Arm64
