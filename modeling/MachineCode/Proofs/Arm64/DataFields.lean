import MachineCode.Proofs.Arm64.Fields

/-!
# The fields that loads, stores and data processing determine

A memory reference tells the number of its base, the size of the access and
whatever is added to the base. Whether the index is scaled is told by all
accesses but those of a byte (`testBit_eq_of_readRegisterOffset`).
-/

namespace MachineCode.Arm64

/-! ## Memory references -/

section References

variable {left right : Nat} {reference other : MemoryReference}

theorem sameField_of_base
    (same : reference = other)
    (leftBase :
      reference.base = some (generalRegister true true (bitField left 5 5)))
    (rightBase :
      other.base = some (generalRegister true true (bitField right 5 5))) :
    SameField left right (5, 5) := by
  rw [same, rightBase] at leftBase
  exact (sameField_of_register (Option.some.inj leftBase)).symm

theorem sameField_of_size
    (same : reference = other)
    (leftSize : reference.size = 2 ^ bitField left 30 2)
    (rightSize : other.size = 2 ^ bitField right 30 2) :
    SameField left right (30, 2) := by
  rw [same, rightSize] at leftSize
  exact (sameField_of_two_pow leftSize).symm

theorem updatedReference_base (base : Register) (bytes index : Nat) :
    (updatedReference base bytes index).base = some base := by
  unfold updatedReference
  split <;> rfl

/-- The update of a base tells the number of the register that is added. -/
theorem sameField_of_updatedReference
    {base otherBase : Register}
    {bytes otherBytes : Nat}
    (same :
      updatedReference base bytes (bitField left 16 5) =
        updatedReference otherBase otherBytes (bitField right 16 5)) :
    SameField left right (16, 5) := by
  have index := congrArg MemoryReference.index same
  unfold updatedReference at index
  split at index <;> split at index
  · next none otherNone => exact none.trans otherNone.symm
  · cases index
  · cases index
  · exact sameField_of_register (Option.some.inj index)

end References

/-! ## Other operands -/

/-- A list of vector registers tells its length and its first register. -/
theorem eq_of_vectorList
    {first count other otherCount : Nat}
    (small : first < 32)
    (otherSmall : other < 32)
    (nonempty : 0 < count)
    (same :
      (vectorList first count).registers =
        (vectorList other otherCount).registers) :
    first = other ∧ count = otherCount := by
  have sameCount : count = otherCount := by
    simpa [vectorList] using congrArg List.length same
  refine ⟨?_, sameCount⟩
  have sameHead := congrArg (fun registers => registers[0]?) same
  simp only [vectorList, List.getElem?_map, List.getElem?_range nonempty,
    List.getElem?_range (sameCount ▸ nonempty), Option.map_some,
    Option.some.injEq, Nat.add_zero, Nat.mod_eq_of_lt small,
    Nat.mod_eq_of_lt otherSmall] at sameHead
  exact Nat.add_left_cancel (congrArg Register.id sameHead)

theorem eq_of_arrangementOf
    {size other : Nat}
    {whole otherWhole : Bool}
    (small : size < 4)
    (otherSmall : other < 4)
    (same : arrangementOf size whole = arrangementOf other otherWhole) :
    size = other ∧ whole = otherWhole := by
  have each :
      ∀ size < 4, ∀ other < 4, ∀ whole otherWhole,
        arrangementOf size whole = arrangementOf other otherWhole →
          size = other ∧ whole = otherWhole := by
    decide
  exact each size small other otherSmall whole otherWhole same

theorem eq_of_structureCount?
    {field other count : Nat}
    (small : field < 16)
    (otherSmall : other < 16)
    (known : structureCount? field = some count)
    (otherKnown : structureCount? other = some count) :
    field = other ∧ 0 < count := by
  have each :
      ∀ field < 16, ∀ other < 16,
        structureCount? field = structureCount? other →
          structureCount? field = none ∨ field = other := by
    decide
  constructor
  · rcases each field small other otherSmall
        (known.trans otherKnown.symm) with absent | same
    · rw [known] at absent
      cases absent
    · exact same
  · unfold structureCount? at known
    split at known <;> cases known <;> decide

theorem sameFields_of_shiftedOperand
    {left right : Nat}
    {wide otherWide : Bool}
    (same :
      shiftedOperand (generalRegister false wide (bitField left 16 5))
          (bitField left 22 2) (bitField left 10 6) =
        shiftedOperand (generalRegister false otherWide (bitField right 16 5))
          (bitField right 22 2) (bitField right 10 6)) :
    SameField left right (10, 6) ∧ SameField left right (16, 5) ∧
      SameField left right (22, 2) := by
  have each :
      ∀ bits < 4, ∀ other < 4,
        ShiftKind.ofBits bits = ShiftKind.ofBits other → bits = other := by
    decide
  unfold shiftedOperand at same
  split at same <;> split at same
  · next none otherNone =>
    exact
      ⟨none.2.trans otherNone.2.symm,
        sameField_of_register (Operand.register.inj same),
        none.1.trans otherNone.1.symm⟩
  · cases same
  · cases same
  · rcases Operand.shiftedRegister.inj same with ⟨source, shift⟩
    exact
      ⟨congrArg Shift.amount shift, sameField_of_register source,
        each _ (bitField_lt left 22 2) _ (bitField_lt right 22 2)
          (congrArg Shift.kind shift)⟩

section Words

variable
  {left right : Word}
  (leftFour : left.size = 4)
  (rightFour : right.size = 4)
  {first second : Reading}
  (same : first.operands = second.operands)
include leftFour rightFour same

/-! ## Loads and stores -/

theorem sameFields_literal
    (sameFlag : left.value.testBit 31 = right.value.testBit 31)
    (leftDemand : bitField left.value 30 2 ≠ 3)
    (rightDemand : bitField right.value 30 2 ≠ 3)
    (leftRead : readLiteral left = .ok first)
    (rightRead : readLiteral right = .ok second) :
    ∀ field ∈ Format.literal.fields,
      SameField left.value right.value field := by
  rw [readLiteral_eq leftFour] at leftRead
  rw [readLiteral_eq rightFour] at rightRead
  cases leftRead
  cases rightRead
  simp only [reading, List.cons.injEq, Operand.register.injEq] at same
  rcases same with ⟨data, target, -⟩
  have sameLow : SameField left.value right.value (30, 1) := by
    have parts (word : Nat) :
        bitField word 30 2 = bitField word 30 1 + 2 * bitField word 31 1 :=
      bitField_add_two word 30 0
    have wide := wide_eq_of_generalRegister data
    have leftBit := bitField_lt left.value 30 1
    have rightBit := bitField_lt right.value 30 1
    have highBit := bitField_lt right.value 31 1
    have sameHigh := sameField_iff.mp (SameField.of_testBit sameFlag)
    rw [decide_eq_decide] at wide
    rw [parts] at wide leftDemand rightDemand
    rw [parts right.value] at wide
    rw [sameField_iff]
    omega
  simp only [Format.fields, List.forall_mem_cons]
  exact
    ⟨sameField_of_register data, sameField_of_target (by decide) target,
      sameLow, by simp⟩

theorem sameFields_unsignedOffset
    (leftRead : readUnsignedOffset left = .ok first)
    (rightRead : readUnsignedOffset right = .ok second) :
    ∀ field ∈ Format.unsignedOffset.fields,
      SameField left.value right.value field := by
  rw [readUnsignedOffset_eq leftFour] at leftRead
  rw [readUnsignedOffset_eq rightFour] at rightRead
  cases leftRead
  cases rightRead
  simp only [transfer, List.cons_append, List.nil_append, List.cons.injEq,
    Operand.register.injEq, Operand.memory.injEq] at same
  rcases same with ⟨data, reference, -⟩
  have size := sameField_of_size reference rfl rfl
  have offset : SameField left.value right.value (10, 12) := by
    have displacement := congrArg MemoryReference.displacement reference
    simp only [sameField_iff.mp size] at displacement
    have unscaled :=
      Int.eq_of_mul_eq_mul_right (Int.ne_of_gt (Int.pow_pos (by decide)))
        displacement
    exact Int.ofNat.inj unscaled
  simp only [Format.fields, List.forall_mem_cons]
  exact
    ⟨sameField_of_register data, sameField_of_base reference rfl rfl, offset,
      size, by simp⟩

theorem sameFields_indexed
    (leftDemand : bitField left.value 10 1 = 1)
    (rightDemand : bitField right.value 10 1 = 1)
    (leftRead : readIndexed left = .ok first)
    (rightRead : readIndexed right = .ok second) :
    ∀ field ∈ Format.indexed.fields,
      SameField left.value right.value field := by
  rw [readIndexed_eq leftFour] at leftRead
  rw [readIndexed_eq rightFour] at rightRead
  cases leftRead
  cases rightRead
  simp only [transfer, List.cons_append, List.nil_append, List.cons.injEq,
    Operand.register.injEq, Operand.memory.injEq] at same
  rcases same with ⟨data, reference, -⟩
  have displacement := congrArg MemoryReference.displacement reference
  dsimp only at displacement
  have update : SameField left.value right.value (10, 2) := by
    have mode := congrArg MemoryReference.mode reference
    have parts (word : Nat) :
        bitField word 10 2 = bitField word 10 1 + 2 * bitField word 11 1 :=
      bitField_add_two word 10 0
    have leftBit := bitField_lt left.value 11 1
    have rightBit := bitField_lt right.value 11 1
    rw [sameField_iff, parts, parts right.value, leftDemand, rightDemand]
    dsimp only at mode
    rw [parts, parts right.value, leftDemand, rightDemand] at mode
    split at mode <;> split at mode
    · omega
    · cases mode
    · cases mode
    · omega
  simp only [Format.fields, List.forall_mem_cons]
  exact
    ⟨sameField_of_register data, sameField_of_base reference rfl rfl, update,
      sameField_of_signExtend (by decide) displacement,
      sameField_of_size reference rfl rfl, by simp⟩

theorem sameFields_registerOffset
    (leftRead : readRegisterOffset left = .ok first)
    (rightRead : readRegisterOffset right = .ok second) :
    ∀ field ∈ Format.registerOffset.fields,
      SameField left.value right.value field := by
  rcases exists_extension_of_readRegisterOffset leftFour leftRead with
    ⟨leftExtension, leftWide, leftKnown, rfl⟩
  rcases exists_extension_of_readRegisterOffset rightFour rightRead with
    ⟨rightExtension, rightWide, rightKnown, rfl⟩
  simp only [transfer, List.cons_append, List.nil_append, List.cons.injEq,
    Operand.register.injEq, Operand.memory.injEq] at same
  rcases same with ⟨data, reference, -⟩
  have index : SameField left.value right.value (16, 5) :=
    sameField_of_register
      (Option.some.inj (congrArg MemoryReference.index reference))
  have option : SameField left.value right.value (13, 3) := by
    have extension :=
      Option.some.inj (congrArg MemoryReference.extension reference)
    have each :
        ∀ option < 8, ∀ other < 8,
          (indexExtension? option).isSome →
            (indexExtension? option).map Prod.fst =
              (indexExtension? other).map Prod.fst →
            option = other := by
      decide
    refine each _ (bitField_lt left.value 13 3) _
      (bitField_lt right.value 13 3) ?_ ?_
    · rw [leftKnown]
      rfl
    · rw [leftKnown, rightKnown]
      exact congrArg some extension
  simp only [Format.fields, List.forall_mem_cons]
  exact
    ⟨sameField_of_register data, sameField_of_base reference rfl rfl, option,
      index, sameField_of_size reference rfl rfl, by simp⟩

/-- The scale of an index is one, unless more than a byte is accessed. -/
theorem testBit_eq_of_readRegisterOffset
    (leftRead : readRegisterOffset left = .ok first)
    (rightRead : readRegisterOffset right = .ok second)
    (several : bitField left.value 30 2 ≠ 0) :
    left.value.testBit 12 = right.value.testBit 12 := by
  rcases exists_extension_of_readRegisterOffset leftFour leftRead with
    ⟨leftExtension, leftWide, leftKnown, rfl⟩
  rcases exists_extension_of_readRegisterOffset rightFour rightRead with
    ⟨rightExtension, rightWide, rightKnown, rfl⟩
  simp only [transfer, List.cons_append, List.nil_append, List.cons.injEq,
    Operand.memory.injEq] at same
  have reference := same.2.1
  have scale := congrArg MemoryReference.scale reference
  have size := sameField_iff.mp (sameField_of_size reference rfl rfl)
  have larger := Nat.one_lt_two_pow several
  dsimp only at scale
  rw [← size] at scale
  cases leftScaled : left.value.testBit 12 <;>
    cases rightScaled : right.value.testBit 12
  · rfl
  · rw [leftScaled, rightScaled] at scale
    simp only [Bool.false_eq_true, ↓reduceIte] at scale
    omega
  · rw [leftScaled, rightScaled] at scale
    simp only [Bool.false_eq_true, ↓reduceIte] at scale
    omega
  · rfl

theorem sameFields_pair
    (leftDemand : bitField left.value 23 2 ≠ 0)
    (rightDemand : bitField right.value 23 2 ≠ 0)
    (leftRead : readPair left = .ok first)
    (rightRead : readPair right = .ok second) :
    ∀ field ∈ Format.pair.fields,
      SameField left.value right.value field := by
  rcases eq_of_readPair leftFour leftRead with ⟨leftEven, _, rfl⟩
  rcases eq_of_readPair rightFour rightRead with ⟨rightEven, _, rfl⟩
  simp only [transfer, List.cons_append, List.nil_append, List.cons.injEq,
    Operand.register.injEq, Operand.memory.injEq] at same
  rcases same with ⟨firstData, secondData, reference, -⟩
  have wide := wide_eq_of_generalRegister firstData
  rw [decide_eq_decide] at wide
  have size : SameField left.value right.value (30, 2) := by
    have leftSmall := bitField_lt left.value 30 2
    have rightSmall := bitField_lt right.value 30 2
    rw [sameField_iff]
    omega
  have update : SameField left.value right.value (23, 2) := by
    have each :
        ∀ field < 4, ∀ other < 4, field ≠ 0 → other ≠ 0 →
          pairMode field = pairMode other → field = other := by
      decide
    exact each _ (bitField_lt left.value 23 2) _
      (bitField_lt right.value 23 2) leftDemand rightDemand
      (congrArg MemoryReference.mode reference)
  have offset : SameField left.value right.value (15, 7) := by
    have displacement := congrArg MemoryReference.displacement reference
    simp only [sameField_iff.mp size] at displacement
    refine sameField_of_signExtend (by decide)
      (Int.eq_of_mul_eq_mul_right ?_ displacement)
    split <;> decide
  simp only [Format.fields, List.forall_mem_cons]
  exact
    ⟨sameField_of_register firstData, sameField_of_base reference rfl rfl,
      sameField_of_register secondData, offset, update, size, by simp⟩

theorem sameFields_exclusive
    (leftRead : readExclusive left = .ok first)
    (rightRead : readExclusive right = .ok second) :
    ∀ field ∈ Format.exclusive.fields,
      SameField left.value right.value field := by
  rw [readExclusive_eq leftFour] at leftRead
  rw [readExclusive_eq rightFour] at rightRead
  cases leftRead
  cases rightRead
  simp only [transfer, List.cons_append, List.nil_append, List.cons.injEq,
    Operand.register.injEq, Operand.memory.injEq] at same
  rcases same with ⟨data, reference, -⟩
  simp only [Format.fields, List.forall_mem_cons]
  exact
    ⟨sameField_of_register data, sameField_of_base reference rfl rfl,
      .of_testBit (wide_eq_of_generalRegister data), by simp⟩

theorem sameFields_exclusiveStore
    (leftRead : readExclusiveStore left = .ok first)
    (rightRead : readExclusiveStore right = .ok second) :
    ∀ field ∈ Format.exclusiveStore.fields,
      SameField left.value right.value field := by
  rw [readExclusiveStore_eq leftFour] at leftRead
  rw [readExclusiveStore_eq rightFour] at rightRead
  cases leftRead
  cases rightRead
  simp only [transfer, List.cons_append, List.nil_append, List.cons.injEq,
    Operand.register.injEq, Operand.memory.injEq] at same
  rcases same with ⟨outcome, data, reference, -⟩
  simp only [Format.fields, List.forall_mem_cons]
  exact
    ⟨sameField_of_register data, sameField_of_base reference rfl rfl,
      sameField_of_register outcome,
      .of_testBit (wide_eq_of_generalRegister data), by simp⟩

theorem sameFields_structures
    {updates : Bool}
    (leftRead : readStructures updates left = .ok first)
    (rightRead : readStructures updates right = .ok second) :
    ∀ field ∈ Format.structures.fields,
      SameField left.value right.value field := by
  rcases exists_count_of_readStructures leftFour leftRead with
    ⟨leftCount, leftKnown, rfl⟩
  rcases exists_count_of_readStructures rightFour rightRead with
    ⟨rightCount, rightKnown, rfl⟩
  simp only [transfer, List.cons_append, List.nil_append, List.cons.injEq,
    Operand.registers.injEq, Operand.memory.injEq] at same
  rcases same with ⟨list, reference, -⟩
  have leftCounts :=
    eq_of_structureCount? (bitField_lt left.value 12 4)
      (bitField_lt left.value 12 4) leftKnown leftKnown
  rcases RegisterList.mk.inj list with ⟨registers, arranged, -⟩
  rcases eq_of_vectorList (bitField_five_lt ..) (bitField_five_lt ..)
      leftCounts.2 registers with
    ⟨start, rfl⟩
  have operation :=
    eq_of_structureCount? (bitField_lt left.value 12 4)
      (bitField_lt right.value 12 4) leftKnown rightKnown
  have arrangement :=
    eq_of_arrangementOf (bitField_lt left.value 10 2)
      (bitField_lt right.value 10 2)
      (Option.some.inj arranged)
  have base : SameField left.value right.value (5, 5) := by
    cases updates with
    | false => exact sameField_of_base reference rfl rfl
    | true =>
        exact sameField_of_base reference
          (updatedReference_base ..) (updatedReference_base ..)
  simp only [Format.fields, List.forall_mem_cons]
  exact
    ⟨start, base, arrangement.1, operation.1, .of_testBit arrangement.2,
      by simp⟩

theorem sameFields_structuresUpdating
    (leftRead : readStructures true left = .ok first)
    (rightRead : readStructures true right = .ok second) :
    ∀ field ∈ Format.structuresUpdating.fields,
      SameField left.value right.value field := by
  have others :=
    sameFields_structures leftFour rightFour same leftRead rightRead
  rcases exists_count_of_readStructures leftFour leftRead with
    ⟨leftCount, -, rfl⟩
  rcases exists_count_of_readStructures rightFour rightRead with
    ⟨rightCount, -, rfl⟩
  simp only [transfer, List.cons_append, List.nil_append, List.cons.injEq,
    Operand.memory.injEq, ↓reduceIte] at same
  have index := sameField_of_updatedReference same.2.1
  have listed :
      Format.structuresUpdating.fields =
        Format.structures.fields ++ [(16, 5)] :=
    rfl
  rw [listed]
  intro field member
  rcases List.mem_append.mp member with shared | last
  · exact others field shared
  · rw [List.mem_singleton.mp last]
    exact index

/-! ## Data processing with registers -/

theorem sameFields_shifted
    {rotates : Bool}
    (leftRead : readShifted rotates left = .ok first)
    (rightRead : readShifted rotates right = .ok second) :
    ∀ field ∈ Format.logicalRegister.fields,
      SameField left.value right.value field := by
  cases eq_of_readShifted leftFour leftRead
  cases eq_of_readShifted rightFour rightRead
  simp only [reading, List.cons.injEq, Operand.register.injEq] at same
  rcases same with ⟨destination, source, shifted, -⟩
  rcases sameFields_of_shiftedOperand shifted with ⟨amount, second, kind⟩
  simp only [Format.fields, List.forall_mem_cons]
  exact
    ⟨sameField_of_register destination, sameField_of_register source, amount,
      second, kind, .of_testBit (wide_eq_of_generalRegister destination),
      by simp⟩

theorem sameFields_select
    (leftRead : readSelect left = .ok first)
    (rightRead : readSelect right = .ok second) :
    ∀ field ∈ Format.select.fields,
      SameField left.value right.value field := by
  rw [readSelect_eq leftFour] at leftRead
  rw [readSelect_eq rightFour] at rightRead
  cases leftRead
  cases rightRead
  simp only [conditionalReading, List.cons.injEq, Operand.register.injEq,
    Operand.condition.injEq] at same
  rcases same with ⟨destination, chosen, other, condition, -⟩
  simp only [Format.fields, List.forall_mem_cons]
  exact
    ⟨sameField_of_register destination, sameField_of_register chosen,
      sameField_of_condition condition, sameField_of_register other,
      .of_testBit (wide_eq_of_generalRegister destination), by simp⟩

theorem sameFields_twoSources
    (leftRead : readSources false left = .ok first)
    (rightRead : readSources false right = .ok second) :
    ∀ field ∈ Format.twoSources.fields,
      SameField left.value right.value field := by
  rw [readSources_eq leftFour] at leftRead
  rw [readSources_eq rightFour] at rightRead
  cases leftRead
  cases rightRead
  simp only [reading, List.cons_append, List.nil_append, List.cons.injEq,
    Operand.register.injEq] at same
  rcases same with ⟨destination, firstSource, secondSource, -⟩
  simp only [Format.fields, List.forall_mem_cons]
  exact
    ⟨sameField_of_register destination, sameField_of_register firstSource,
      sameField_of_register secondSource,
      .of_testBit (wide_eq_of_generalRegister destination), by simp⟩

theorem sameFields_threeSources
    (leftRead : readSources true left = .ok first)
    (rightRead : readSources true right = .ok second) :
    ∀ field ∈ Format.threeSources.fields,
      SameField left.value right.value field := by
  rw [readSources_eq leftFour] at leftRead
  rw [readSources_eq rightFour] at rightRead
  cases leftRead
  cases rightRead
  simp only [reading, List.cons_append, List.nil_append, List.cons.injEq,
    Operand.register.injEq, ↓reduceIte] at same
  rcases same with ⟨destination, firstSource, secondSource, thirdSource, -⟩
  simp only [Format.fields, List.forall_mem_cons]
  exact
    ⟨sameField_of_register destination, sameField_of_register firstSource,
      sameField_of_register secondSource,
      .of_testBit (wide_eq_of_generalRegister destination),
      sameField_of_register thirdSource, by simp⟩

theorem sameFields_floatConstant
    (leftRead : readFloatConstant left = .ok first)
    (rightRead : readFloatConstant right = .ok second) :
    ∀ field ∈ Format.floatConstant.fields,
      SameField left.value right.value field := by
  rcases exists_size_of_readFloatConstant leftFour leftRead with
    ⟨leftSize, leftKnown, rfl⟩
  rcases exists_size_of_readFloatConstant rightFour rightRead with
    ⟨rightSize, rightKnown, rfl⟩
  simp only [reading, List.cons.injEq, Operand.register.injEq,
    Operand.float.injEq] at same
  rcases same with ⟨destination, constant, -⟩
  cases show leftSize = rightSize from congrArg Register.size destination
  simp only [Format.fields, List.forall_mem_cons]
  exact
    ⟨sameField_of_floatRegister destination, sameField_of_float constant,
      sameField_of_floatBits? leftKnown rightKnown, by simp⟩

theorem sameFields_floatArithmetic
    (leftRead : readFloat left = .ok first)
    (rightRead : readFloat right = .ok second) :
    ∀ field ∈ Format.floatArithmetic.fields,
      SameField left.value right.value field := by
  rcases exists_size_of_readFloat leftFour leftRead with
    ⟨leftSize, leftKnown, rfl⟩
  rcases exists_size_of_readFloat rightFour rightRead with
    ⟨rightSize, rightKnown, rfl⟩
  simp only [reading, List.cons.injEq, Operand.register.injEq] at same
  rcases same with ⟨destination, firstSource, secondSource, -⟩
  cases show leftSize = rightSize from congrArg Register.size destination
  simp only [Format.fields, List.forall_mem_cons]
  exact
    ⟨sameField_of_floatRegister destination,
      sameField_of_floatRegister firstSource,
      sameField_of_floatRegister secondSource,
      sameField_of_floatBits? leftKnown rightKnown, by simp⟩

end Words

/-! ## Ways of addressing memory -/

/-- The ways in which an instruction may find its memory. -/
inductive Addressing where
  /-- There is no memory operand. -/
  | absent
  /-- The memory is at a constant offset from the base. -/
  | offset
  /-- A register is added to the base. -/
  | index
  /-- The base is updated. -/
  | update
deriving DecidableEq, Repr

/-- How the last operand addresses memory. -/
def addressing (operands : List Operand) : Addressing :=
  match operands.getLast? with
  | some (.memory reference) =>
    if reference.writesBase then .update
    else if reference.index.isSome then .index
    else .offset
  | _ => .absent

/-- How the formats that share an opcode address memory. -/
def Format.addressing? : Format → Option Addressing
  | .literal => some .absent
  | .unsignedOffset | .structures => some .offset
  | .registerOffset => some .index
  | .indexed | .structuresUpdating => some .update
  | _ => none

theorem addressing_of_read
    {word : Word}
    (four : word.size = 4)
    {format : Format}
    {result : Reading}
    (read : format.read word = .ok result)
    {way : Addressing}
    (known : format.addressing? = some way) :
    addressing result.operands = way := by
  cases format with
  | literal =>
      cases known
      rw [Format.read, readLiteral_eq four] at read
      cases read
      rfl
  | unsignedOffset =>
      cases known
      rw [Format.read, readUnsignedOffset_eq four] at read
      cases read
      rfl
  | indexed =>
      cases known
      rw [Format.read, readIndexed_eq four] at read
      cases read
      by_cases before : bitField word.value 10 2 = 0b11 <;>
        simp [addressing, transfer, before, MemoryReference.writesBase]
  | registerOffset =>
      cases known
      rcases exists_extension_of_readRegisterOffset four read with
        ⟨_, _, -, rfl⟩
      rfl
  | structures =>
      cases known
      rcases exists_count_of_readStructures four read with ⟨_, -, rfl⟩
      rfl
  | structuresUpdating =>
      cases known
      rcases exists_count_of_readStructures four read with ⟨_, -, rfl⟩
      by_cases bySize : bitField word.value 16 5 = 31 <;>
        simp [addressing, transfer, updatedReference, bySize,
          MemoryReference.writesBase]
  | _ => cases known

end MachineCode.Arm64
