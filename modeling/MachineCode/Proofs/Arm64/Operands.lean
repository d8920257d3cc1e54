import MachineCode.Arm64.Format
import MachineCode.Proofs.Reading
import Mathlib.Algebra.Group.Int.Defs

/-!
# Operands of Arm64 words

What the operand formats read from a word of four bytes, said in one equation
for a format that reads every word, and as what a successful read comes to for
a format that refuses some.
-/

namespace MachineCode.Arm64

/-! ## Registers -/

/--
The general register of a number below 32. The number 31 is the stack pointer
where an address is meant, and the zero register otherwise.
-/
def generalRegister (address wide : Bool) (number : Nat) : Register :=
  if address && number = 31 then
    ⟨.arm64, .stackPointer, stackPointer, generalBits wide⟩
  else
    ⟨.arm64, .general, number, generalBits wide⟩

@[simp]
theorem generalRegister_size (address wide : Bool) (number : Nat) :
    (generalRegister address wide number).size = generalBits wide := by
  unfold generalRegister
  split <;> rfl

theorem generalRegister_id (address wide : Bool) (number : Nat) :
    (generalRegister address wide number).id =
      if address && number = 31 then stackPointer else number := by
  unfold generalRegister
  split <;> rfl

theorem find_general
    (wide : Bool)
    {number : Nat}
    (small : number < 32) :
    (general wide).find number = .ok (generalRegister false wide number) := by
  have each :
      ∀ number, number < 32 →
        (general wide).get? number =
          some (generalRegister false wide number) := by
    cases wide <;> decide
  rw [RegisterFile.find, each number small]

theorem find_generalOrStack
    (wide : Bool)
    {number : Nat}
    (small : number < 32) :
    (generalOrStack wide).find number =
      .ok (generalRegister true wide number) := by
  have each :
      ∀ number, number < 32 →
        (generalOrStack wide).get? number =
          some (generalRegister true wide number) := by
    cases wide <;> decide
  rw [RegisterFile.find, each number small]

/-- The file of the general registers, with the register that 31 names. -/
theorem find_generalOf
    {data : Prop}
    [Decidable data]
    (wide : Bool)
    {number : Nat}
    (small : number < 32) :
    (if data then general wide else generalOrStack wide).find number =
      .ok (generalRegister (!decide data) wide number) := by
  by_cases isData : data
  · simp [isData, find_general wide small]
  · simp [isData, find_generalOrStack wide small]

/-- The lower `size` bits of a vector register. -/
def floatRegister (size number : Nat) : Register :=
  ⟨.arm64, .floatingPoint, 64 + number, size⟩

theorem find_floats
    (name : String)
    (size : Nat)
    {number : Nat}
    (small : number < 32) :
    (floats name size).find number = .ok (floatRegister size number) := by
  rw [RegisterFile.find, floats, RegisterFile.get?_sequential small]
  rfl

/-- The width of the floating-point registers of a precision. -/
def floatBits? : Nat → Option Nat
  | 0b00 => some 32
  | 0b01 => some 64
  | 0b11 => some 16
  | _ => none

theorem exists_of_floatsOfType
    {precision : Nat}
    {file : RegisterFile}
    (found : floatsOfType precision = .ok file) :
    ∃ name size,
      floatBits? precision = some size ∧ file = floats name size := by
  unfold floatsOfType at found
  split at found <;> cases found
  · exact ⟨_, _, rfl, rfl⟩
  · exact ⟨_, _, rfl, rfl⟩
  · exact ⟨_, _, rfl, rfl⟩

/-- A whole vector register. -/
def vectorRegister (number : Nat) : Register :=
  ⟨.arm64, .vector, 64 + number, 128⟩

theorem find_vectors {number : Nat} (small : number < 32) :
    vectors.find number = .ok (vectorRegister number) := by
  rw [RegisterFile.find, vectors, RegisterFile.get?_sequential small]
  rfl

/-- Whether an access of a size transfers a wide register. -/
def isWideTransfer (size operation : Nat) : Bool :=
  size = 0b11 || (size = 0b10 && operation = 0b10)

theorem transferred_eq (size operation : Nat) :
    transferred size operation = general (isWideTransfer size operation) :=
  rfl

/-- A field of five bits is the number of a register. -/
theorem bitField_five_lt (value start : Nat) : bitField value start 5 < 32 :=
  bitField_lt value start 5

/-- The vector registers from a number on, around the end of the file. -/
def vectorList (first count : Nat) : RegisterList :=
  { registers :=
      (List.range count).map fun index =>
        vectorRegister ((first + index) % 32) }

theorem consecutive_vectors (first count : Nat) :
    vectors.consecutive first count = .ok (vectorList first count) := by
  have each :
      (fun index => vectors.find ((first + index) % vectors.size)) =
        fun index => .ok (vectorRegister ((first + index) % 32)) := by
    funext index
    exact find_vectors (Nat.mod_lt _ (by decide))
  have all :
      ((List.range count).mapM fun index =>
          vectors.find ((first + index) % vectors.size)) =
        .ok (vectorList first count).registers := by
    rw [each]
    exact List.mapM_pure
  rw [RegisterFile.consecutive, if_neg (by decide), all]
  rfl

/-- The memory of structures, updated by its size or by a register. -/
def updatedReference (base : Register) (bytes indexNumber : Nat) :
    MemoryReference :=
  if indexNumber = 31 then
    { structureReference base bytes with
      displacement := bytes, mode := .postIndex }
  else
    { structureReference base bytes with
      index := some (generalRegister false true indexNumber)
      mode := .postIndex }

theorem updatingReference_eq
    (base : Register)
    (bytes : Nat)
    {indexNumber : Nat}
    (small : indexNumber < 32) :
    updatingReference base bytes indexNumber =
      .ok (updatedReference base bytes indexNumber) := by
  rw [updatingReference, updatedReference]
  split
  · rfl
  · rw [find_general true small]
    rfl

section Readings

variable {word : Word} (four : word.size = 4)
include four

theorem readRegister_general
    (wide : Bool)
    {start : Nat}
    (inside : start + 5 ≤ 32) :
    readRegister (general wide) start word =
      .ok (.register
        (generalRegister false wide (bitField word.value start 5))) := by
  rw [readRegister, field_eq_ok_of_size four (by decide) inside]
  simp only [bind, Except.bind, find_general wide (bitField_five_lt ..), pure,
    Except.pure]

theorem readRegister_generalOf
    {data : Prop}
    [Decidable data]
    (wide : Bool)
    {start : Nat}
    (inside : start + 5 ≤ 32) :
    readRegister (if data then general wide else generalOrStack wide) start
        word =
      .ok (.register
        (generalRegister (!decide data) wide
          (bitField word.value start 5))) := by
  rw [readRegister, field_eq_ok_of_size four (by decide) inside]
  simp only [bind, Except.bind, find_generalOf wide (bitField_five_lt ..),
    pure, Except.pure]

theorem readRegister_generalOrStack
    (wide : Bool)
    {start : Nat}
    (inside : start + 5 ≤ 32) :
    readRegister (generalOrStack wide) start word =
      .ok (.register
        (generalRegister true wide (bitField word.value start 5))) :=
  @readRegister_generalOf _ four False _ wide _ inside

theorem readRegister_floats
    (name : String)
    (size : Nat)
    {start : Nat}
    (inside : start + 5 ≤ 32) :
    readRegister (floats name size) start word =
      .ok (.register (floatRegister size (bitField word.value start 5))) := by
  rw [readRegister, field_eq_ok_of_size four (by decide) inside]
  simp only [bind, Except.bind, find_floats name size (bitField_five_lt ..),
    pure, Except.pure]

theorem readBase_eq :
    readBase word =
      .ok (generalRegister true true (bitField word.value 5 5)) := by
  rw [readBase, field_eq_ok_of_size four (by decide) (by decide)]
  exact find_generalOrStack true (bitField_five_lt ..)

theorem readTarget_eq
    {start length : Nat}
    (nonempty : length ≠ 0)
    (inside : start + length ≤ 32) :
    readTarget start length word =
      .ok (.relativeField (bitField word.value start length) length 4
        word.address 0) := by
  rw [readTarget, field_eq_ok_of_size four nonempty inside]
  rfl

/-! ## Formats with a constant -/

theorem readNearAddress_eq :
    readNearAddress word =
      .ok (reading
        [.register (generalRegister false true (bitField word.value 0 5)),
          if word.value.testBit 31 then
            .relativeField
              (4 * bitField word.value 5 19 + bitField word.value 29 2) 21
              4096 word.address 0xfff
          else
            .relativeField
              (4 * bitField word.value 5 19 + bitField word.value 29 2) 21 1
              word.address 0]) := by
  simp (disch := decide) only [readNearAddress, flag_eq_ok_of_size four,
    field_eq_ok_of_size four, readRegister_general four, bind, Except.bind,
    pure, Except.pure]

theorem readAddConstant_eq :
    readAddConstant word =
      .ok (reading
        ([.register
            (generalRegister (!word.value.testBit 29)
              (word.value.testBit 31) (bitField word.value 0 5)),
          .register
            (generalRegister true (word.value.testBit 31)
              (bitField word.value 5 5)),
          .unsigned (bitField word.value 10 12) 12] ++
          if word.value.testBit 22 then [.shift ⟨.lsl, 12⟩] else [])) := by
  simp (disch := decide) only [readAddConstant, flag_eq_ok_of_size four,
    field_eq_ok_of_size four, readRegister_generalOf four,
    readRegister_generalOrStack four, bind, Except.bind, pure, Except.pure,
    Bool.decide_eq_true]

theorem exists_pattern_of_readLogicalConstant
    {result : Reading}
    (read : readLogicalConstant word = .ok result) :
    ∃ pattern : BitPattern,
      BitPattern.ofFields? (bitField word.value 22 1)
          (bitField word.value 16 6) (bitField word.value 10 6) =
          some pattern ∧
        pattern.period ≤ generalBits (word.value.testBit 31) ∧
        (word.value.testBit 31 = false → bitField word.value 22 1 ≠ 1) ∧
        result =
          reading
            [.register
                (generalRegister (bitField word.value 29 2 ≠ 3)
                  (word.value.testBit 31) (bitField word.value 0 5)),
              .register
                (generalRegister false (word.value.testBit 31)
                  (bitField word.value 5 5)),
              .unsigned
                (pattern.value (generalBits (word.value.testBit 31)))
                (generalBits (word.value.testBit 31))] := by
  simp (disch := decide) only [readLogicalConstant, flag_eq_ok_of_size four,
    field_eq_ok_of_size four, readRegister_generalOf four,
    readRegister_general four, bind, Except.bind, pure, Except.pure] at read
  split at read
  · cases read
  next admitted =>
  rw [logicalImmediate?] at read
  cases decoded : BitPattern.ofFields? (bitField word.value 22 1)
      (bitField word.value 16 6) (bitField word.value 10 6) with
  | none =>
      rw [decoded] at read
      cases read
  | some pattern =>
      rw [decoded] at read
      by_cases fits : pattern.period ≤ generalBits (word.value.testBit 31)
      · simp only [if_pos fits] at read
        cases read
        refine ⟨pattern, rfl, fits, ?_, by simp⟩
        intro narrow single
        simp [narrow, single] at admitted
      · simp only [if_neg fits] at read
        cases read

theorem eq_of_readWideMove
    {result : Reading}
    (read : readWideMove word = .ok result) :
    (word.value.testBit 31 = false → bitField word.value 21 2 < 2) ∧
      result =
        reading
          ([.register
              (generalRegister false (word.value.testBit 31)
                (bitField word.value 0 5)),
            .unsigned (bitField word.value 5 16) 16] ++
            if bitField word.value 21 2 = 0 then []
            else [.shift ⟨.lsl, 16 * bitField word.value 21 2⟩]) := by
  simp (disch := decide) only [readWideMove, flag_eq_ok_of_size four,
    field_eq_ok_of_size four, readRegister_general four, bind, Except.bind,
    pure, Except.pure] at read
  split at read
  · cases read
  next admitted =>
  cases read
  refine ⟨?_, rfl⟩
  intro narrow
  simpa [narrow] using admitted

theorem eq_of_readBitfield
    {result : Reading}
    (read : readBitfield word = .ok result) :
    word.value.testBit 22 = word.value.testBit 31 ∧
      bitField word.value 16 6 < generalBits (word.value.testBit 31) ∧
      bitField word.value 10 6 < generalBits (word.value.testBit 31) ∧
      result =
        reading
          [.register
              (generalRegister false (word.value.testBit 31)
                (bitField word.value 0 5)),
            .register
              (generalRegister false (word.value.testBit 31)
                (bitField word.value 5 5)),
            .unsigned (bitField word.value 16 6) 6,
            .unsigned (bitField word.value 10 6) 6] := by
  simp (disch := decide) only [readBitfield, flag_eq_ok_of_size four,
    field_eq_ok_of_size four, readRegister_general four, bind, Except.bind,
    pure, Except.pure] at read
  split at read
  · cases read
  next same =>
  split at read
  · cases read
  next admitted =>
  cases read
  have rotation := bitField_lt word.value 16 6
  have highest := bitField_lt word.value 10 6
  rw [ne_eq, Decidable.not_not] at same
  refine ⟨same, ?_, ?_, rfl⟩
  · cases wide : word.value.testBit 31 with
    | true => exact rotation
    | false =>
        simp only [wide, Bool.not_false, Bool.true_and, Bool.or_eq_true,
          decide_eq_true_eq, not_or, Nat.not_le] at admitted
        exact admitted.1
  · cases wide : word.value.testBit 31 with
    | true => exact highest
    | false =>
        simp only [wide, Bool.not_false, Bool.true_and, Bool.or_eq_true,
          decide_eq_true_eq, not_or, Nat.not_le] at admitted
        exact admitted.2

theorem eq_of_readExtract
    {result : Reading}
    (read : readExtract word = .ok result) :
    word.value.testBit 22 = word.value.testBit 31 ∧
      result =
        reading
          [.register
              (generalRegister false (word.value.testBit 31)
                (bitField word.value 0 5)),
            .register
              (generalRegister false (word.value.testBit 31)
                (bitField word.value 5 5)),
            .register
              (generalRegister false (word.value.testBit 31)
                (bitField word.value 16 5)),
            .unsigned (bitField word.value 10 6) 6] := by
  simp (disch := decide) only [readExtract, flag_eq_ok_of_size four,
    field_eq_ok_of_size four, readRegister_general four, bind, Except.bind,
    pure, Except.pure] at read
  split at read
  · cases read
  next same =>
  split at read
  · cases read
  cases read
  exact ⟨Decidable.not_not.mp same, rfl⟩

/-! ## Branches and the system -/

theorem readBranch_eq :
    readBranch word =
      .ok (reading
        [.relativeField (bitField word.value 0 26) 26 4 word.address 0]) := by
  rw [readBranch, readTarget_eq four (by decide) (by decide)]
  rfl

theorem readConditionalBranch_eq :
    readConditionalBranch word =
      .ok (conditionalReading (conditionOfCode (bitField word.value 0 4))
        [.relativeField (bitField word.value 5 19) 19 4 word.address 0]) := by
  rw [readConditionalBranch, readTarget_eq four (by decide) (by decide),
    field_eq_ok_of_size four (by decide) (by decide)]
  rfl

theorem readCompareBranch_eq :
    readCompareBranch word =
      .ok (reading
        [.register
            (generalRegister false (word.value.testBit 31)
              (bitField word.value 0 5)),
          .relativeField (bitField word.value 5 19) 19 4 word.address
            0]) := by
  rw [readCompareBranch, flag_eq_ok_of_size four (by decide),
    readTarget_eq four (by decide) (by decide)]
  simp (disch := decide) only [readRegister_general four, bind, Except.bind,
    pure, Except.pure]

theorem readTestBranch_eq :
    readTestBranch word =
      .ok (reading
        [.register
            (generalRegister false (bitField word.value 31 1 = 1)
              (bitField word.value 0 5)),
          .unsigned
            (32 * bitField word.value 31 1 + bitField word.value 19 5) 6,
          .relativeField (bitField word.value 5 14) 14 4 word.address
            0]) := by
  simp (disch := decide) only [readTestBranch, field_eq_ok_of_size four,
    readTarget_eq four, readRegister_general four, bind, Except.bind, pure,
    Except.pure]

theorem readBranchRegister_eq :
    readBranchRegister word =
      .ok (reading
        [.register
          (generalRegister false true (bitField word.value 5 5))]) := by
  rw [readBranchRegister, readRegister_general four true (by decide)]
  rfl

theorem readCode_eq
    {length : Nat}
    (nonempty : length ≠ 0)
    (inside : 5 + length ≤ 32) :
    readCode length word =
      .ok (reading
        [.unsigned (bitField word.value 5 length) length]) := by
  rw [readCode, field_eq_ok_of_size four nonempty inside]
  rfl

theorem readSystemMove_eq :
    readSystemMove word =
      .ok
        (.systemRegister (systemRegister (bitField word.value 5 16)),
          .register
            (generalRegister false true (bitField word.value 0 5))) := by
  rw [readSystemMove, field_eq_ok_of_size four (by decide) (by decide),
    readRegister_general four true (by decide)]
  rfl

theorem readFromSystem_eq :
    readFromSystem word =
      .ok (reading
        [.register (generalRegister false true (bitField word.value 0 5)),
          .systemRegister
            (systemRegister (bitField word.value 5 16))]) := by
  rw [readFromSystem, readSystemMove_eq four]
  rfl

theorem readToSystem_eq :
    readToSystem word =
      .ok (reading
        [.systemRegister (systemRegister (bitField word.value 5 16)),
          .register
            (generalRegister false true (bitField word.value 0 5))]) := by
  rw [readToSystem, readSystemMove_eq four]
  rfl

/-! ## Loads and stores -/

theorem readLiteral_eq :
    readLiteral word =
      .ok (reading
        [.register
            (generalRegister false (bitField word.value 30 2 ≠ 0)
              (bitField word.value 0 5)),
          .relativeField (bitField word.value 5 19) 19 4 word.address
            0]) := by
  simp (disch := decide) only [readLiteral, field_eq_ok_of_size four,
    readRegister_general four, bind, Except.bind, pure, Except.pure]

theorem readUnsignedOffset_eq :
    readUnsignedOffset word =
      .ok (transfer
        [.register
          (generalRegister false
            (isWideTransfer (bitField word.value 30 2)
              (bitField word.value 22 2))
            (bitField word.value 0 5))]
        { base := some (generalRegister true true (bitField word.value 5 5))
          displacement :=
            bitField word.value 10 12 * 2 ^ bitField word.value 30 2
          size := 2 ^ bitField word.value 30 2 }
        false) := by
  simp (disch := decide) only [readUnsignedOffset, field_eq_ok_of_size four,
    readBase_eq four, transferred_eq, readRegister_general four, bind,
    Except.bind, pure, Except.pure]

theorem readIndexed_eq :
    readIndexed word =
      .ok (transfer
        [.register
          (generalRegister false
            (isWideTransfer (bitField word.value 30 2)
              (bitField word.value 22 2))
            (bitField word.value 0 5))]
        { base := some (generalRegister true true (bitField word.value 5 5))
          displacement := signExtend (bitField word.value 12 9) 9
          size := 2 ^ bitField word.value 30 2
          mode :=
            if bitField word.value 10 2 = 0b11 then .preIndex
            else .postIndex }
        (bitField word.value 5 5 ≠ 31 &&
          bitField word.value 5 5 = bitField word.value 0 5)) := by
  simp (disch := decide) only [readIndexed, field_eq_ok_of_size four,
    signedField_eq_ok_of_size four, transferred_eq, bind, Except.bind, pure,
    Except.pure, find_general _ (bitField_five_lt ..),
    find_generalOrStack _ (bitField_five_lt ..)]

theorem exists_extension_of_readRegisterOffset
    {result : Reading}
    (read : readRegisterOffset word = .ok result) :
    ∃ extension wide,
      indexExtension? (bitField word.value 13 3) = some (extension, wide) ∧
        result =
          transfer
            [.register
              (generalRegister false
                (isWideTransfer (bitField word.value 30 2)
                  (bitField word.value 22 2))
                (bitField word.value 0 5))]
            { base :=
                some (generalRegister true true (bitField word.value 5 5))
              index :=
                some
                  (generalRegister false wide (bitField word.value 16 5))
              scale :=
                if word.value.testBit 12 then 2 ^ bitField word.value 30 2
                else 1
              size := 2 ^ bitField word.value 30 2
              extension := some extension }
            false := by
  simp (disch := decide) only [readRegisterOffset, field_eq_ok_of_size four,
    flag_eq_ok_of_size four, readBase_eq four, transferred_eq,
    readRegister_general four, bind, Except.bind, pure, Except.pure] at read
  cases known : indexExtension? (bitField word.value 13 3) with
  | none =>
      rw [known] at read
      cases read
  | some choice =>
      rcases choice with ⟨extension, wide⟩
      simp only [known, find_general _ (bitField_five_lt ..)] at read
      cases read
      exact ⟨extension, wide, rfl, rfl⟩

theorem eq_of_readPair
    {result : Reading}
    (read : readPair word = .ok result) :
    bitField word.value 30 2 % 2 = 0 ∧
      ∃ doubtful,
        result =
          transfer
            [.register
                (generalRegister false (bitField word.value 30 2 = 0b10)
                  (bitField word.value 0 5)),
              .register
                (generalRegister false (bitField word.value 30 2 = 0b10)
                  (bitField word.value 10 5))]
            { base :=
                some (generalRegister true true (bitField word.value 5 5))
              displacement :=
                signExtend (bitField word.value 15 7) 7 *
                  (if bitField word.value 30 2 = 0b10 then 8 else 4 : Nat)
              size := 2 * if bitField word.value 30 2 = 0b10 then 8 else 4
              mode := pairMode (bitField word.value 23 2) }
            doubtful := by
  simp (disch := decide) only [readPair, field_eq_ok_of_size four,
    flag_eq_ok_of_size four, signedField_eq_ok_of_size four, bind,
    Except.bind, pure, Except.pure, find_general _ (bitField_five_lt ..),
    find_generalOrStack _ (bitField_five_lt ..), decide_eq_true_eq] at read
  split at read
  · cases read
  next even =>
  cases read
  exact ⟨by omega, _, rfl⟩

theorem readExclusive_eq :
    readExclusive word =
      .ok (transfer
        [.register
          (generalRegister false (word.value.testBit 30)
            (bitField word.value 0 5))]
        { base := some (generalRegister true true (bitField word.value 5 5))
          size := if word.value.testBit 30 then 8 else 4 }
        false) := by
  simp (disch := decide) only [readExclusive, field_eq_ok_of_size four,
    flag_eq_ok_of_size four, readBase_eq four, readRegister_general four,
    bind, Except.bind, pure, Except.pure]

theorem readExclusiveStore_eq :
    readExclusiveStore word =
      .ok (transfer
        [.register (generalRegister false false (bitField word.value 16 5)),
          .register
            (generalRegister false (word.value.testBit 30)
              (bitField word.value 0 5))]
        { base := some (generalRegister true true (bitField word.value 5 5))
          size := if word.value.testBit 30 then 8 else 4 }
        false) := by
  simp (disch := decide) only [readExclusiveStore, flag_eq_ok_of_size four,
    readBase_eq four, readRegister_general four, bind, Except.bind, pure,
    Except.pure]

theorem exists_count_of_readStructures
    {updates : Bool}
    {result : Reading}
    (read : readStructures updates word = .ok result) :
    ∃ count,
      structureCount? (bitField word.value 12 4) = some count ∧
        result =
          transfer
            [.registers
              { vectorList (bitField word.value 0 5) count with
                arrangement :=
                  arrangementOf (bitField word.value 10 2)
                    (word.value.testBit 30) }]
            (if updates then
              updatedReference
                (generalRegister true true (bitField word.value 5 5))
                (count * if word.value.testBit 30 then 16 else 8)
                (bitField word.value 16 5)
            else
              structureReference
                (generalRegister true true (bitField word.value 5 5))
                (count * if word.value.testBit 30 then 16 else 8))
            false := by
  simp (disch := decide) only [readStructures, flag_eq_ok_of_size four,
    field_eq_ok_of_size four, readBase_eq four, consecutive_vectors, bind,
    Except.bind, pure, Except.pure,
    updatingReference_eq _ _ (bitField_five_lt ..)] at read
  cases known : structureCount? (bitField word.value 12 4) with
  | none =>
      rw [known] at read
      cases read
  | some count =>
      simp only [known] at read
      refine ⟨count, rfl, ?_⟩
      cases updates with
      | false =>
          cases read
          rfl
      | true =>
          cases read
          rfl

/-! ## Data processing with registers -/

theorem eq_of_readShifted
    {rotates : Bool}
    {result : Reading}
    (read : readShifted rotates word = .ok result) :
    result =
      reading
        [.register
            (generalRegister false (word.value.testBit 31)
              (bitField word.value 0 5)),
          .register
            (generalRegister false (word.value.testBit 31)
              (bitField word.value 5 5)),
          shiftedOperand
            (generalRegister false (word.value.testBit 31)
              (bitField word.value 16 5))
            (bitField word.value 22 2) (bitField word.value 10 6)] := by
  simp (disch := decide) only [readShifted, flag_eq_ok_of_size four,
    field_eq_ok_of_size four, readRegister_general four, bind, Except.bind,
    pure, Except.pure, find_general _ (bitField_five_lt ..)] at read
  split at read
  · cases read
  split at read
  · cases read
  cases read
  rfl

theorem readSelect_eq :
    readSelect word =
      .ok (conditionalReading (conditionOfCode (bitField word.value 12 4))
        [.register
            (generalRegister false (word.value.testBit 31)
              (bitField word.value 0 5)),
          .register
            (generalRegister false (word.value.testBit 31)
              (bitField word.value 5 5)),
          .register
            (generalRegister false (word.value.testBit 31)
              (bitField word.value 16 5)),
          .condition (conditionOfCode (bitField word.value 12 4))]) := by
  simp (disch := decide) only [readSelect, flag_eq_ok_of_size four,
    field_eq_ok_of_size four, readRegister_general four, bind, Except.bind,
    pure, Except.pure]

theorem readSources_eq (three : Bool) :
    readSources three word =
      .ok (reading
        ([.register
            (generalRegister false (word.value.testBit 31)
              (bitField word.value 0 5)),
          .register
            (generalRegister false (word.value.testBit 31)
              (bitField word.value 5 5)),
          .register
            (generalRegister false (word.value.testBit 31)
              (bitField word.value 16 5))] ++
          if three then
            [.register
              (generalRegister false (word.value.testBit 31)
                (bitField word.value 10 5))]
          else
            [])) := by
  simp (disch := decide) only [readSources, flag_eq_ok_of_size four,
    readRegister_general four, bind, Except.bind, pure, Except.pure]

theorem exists_size_of_readFloatConstant
    {result : Reading}
    (read : readFloatConstant word = .ok result) :
    ∃ size,
      floatBits? (bitField word.value 22 2) = some size ∧
        result =
          reading
            [.register (floatRegister size (bitField word.value 0 5)),
              .float (.ofImmediate8 (bitField word.value 13 8))] := by
  simp (disch := decide) only [readFloatConstant, readPrecision,
    field_eq_ok_of_size four, bind, Except.bind] at read
  cases found : floatsOfType (bitField word.value 22 2) with
  | error cause =>
      rw [found] at read
      cases read
  | ok file =>
      rcases exists_of_floatsOfType found with ⟨name, size, width, rfl⟩
      simp (disch := decide) only [found, readRegister_floats four, pure,
        Except.pure] at read
      cases read
      exact ⟨size, width, rfl⟩

theorem exists_size_of_readFloat
    {result : Reading}
    (read : readFloat word = .ok result) :
    ∃ size,
      floatBits? (bitField word.value 22 2) = some size ∧
        result =
          reading
            [.register (floatRegister size (bitField word.value 0 5)),
              .register (floatRegister size (bitField word.value 5 5)),
              .register (floatRegister size (bitField word.value 16 5))] := by
  simp (disch := decide) only [readFloat, readPrecision,
    field_eq_ok_of_size four, bind, Except.bind] at read
  cases found : floatsOfType (bitField word.value 22 2) with
  | error cause =>
      rw [found] at read
      cases read
  | ok file =>
      rcases exists_of_floatsOfType found with ⟨name, size, width, rfl⟩
      simp (disch := decide) only [found, readRegister_floats four, pure,
        Except.pure] at read
      cases read
      exact ⟨size, width, rfl⟩

end Readings

end MachineCode.Arm64
