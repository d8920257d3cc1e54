import MachineCode.Arm64.InstructionSet
import MachineCode.Proofs.Arm64.DataFields
import MachineCode.Proofs.Table.Decoding

/-!
# Decoding loses no bits

Two words that decode to the same instruction in earnest are the same word
(`eq_or_twins_of_run`). The paths of the decode program on which they decode
have the same opcode. Each bit is either fixed by both paths, to the same
value, or it belongs to a field that the operands determine; that this is so
for any two paths is decided by evaluation (`pathsAreSound_eq_true`). Paths of
one opcode with different formats address memory in different ways.

Two formats leave some bits open. The words that differ in these bits only are
told by `RotationTwins` and `ScaleTwins`.
-/

namespace MachineCode.Arm64

/-! ## Two words of one format -/

section Words

variable
  {left right : Word}
  (leftFour : left.size = 4)
  (rightFour : right.size = 4)
  {first second : Reading}
  (same : first.operands = second.operands)
include leftFour rightFour same

/-- The operands determine the fields of the format. -/
theorem sameFields_of_read
    {format : Format}
    (sameFlag :
      (fieldsMask (format.fields ++ format.blurred)).testBit 31 = false →
        left.value.testBit 31 = right.value.testBit 31)
    {grants : Nat → Bool}
    (leftMeets : ∀ guard ∈ format.demands, guard.holds grants left.value)
    (rightMeets : ∀ guard ∈ format.demands, guard.holds grants right.value)
    (leftRead : format.read left = .ok first)
    (rightRead : format.read right = .ok second) :
    ∀ field ∈ format.fields, SameField left.value right.value field := by
  cases format with
  | nearAddress =>
      exact sameFields_nearAddress leftFour rightFour same
        (sameFlag (by decide)) leftRead rightRead
  | addConstant =>
      exact sameFields_addConstant leftFour rightFour same leftRead rightRead
  | logicalConstant =>
      have fields :=
        sameFields_logicalConstant leftFour rightFour same leftRead rightRead
      exact (List.forall_mem_cons.mp fields).2
  | wideMove =>
      exact sameFields_wideMove leftFour rightFour same leftRead rightRead
  | bitfield =>
      exact sameFields_bitfield leftFour rightFour same leftRead rightRead
  | extract =>
      exact sameFields_extract leftFour rightFour same leftRead rightRead
  | branch =>
      exact sameFields_branch leftFour rightFour same leftRead rightRead
  | conditionalBranch =>
      exact sameFields_conditionalBranch leftFour rightFour same leftRead
        rightRead
  | compareBranch =>
      exact sameFields_compareBranch leftFour rightFour same leftRead
        rightRead
  | testBranch =>
      exact sameFields_testBranch leftFour rightFour same leftRead rightRead
  | branchRegister =>
      exact sameFields_branchRegister leftFour rightFour same leftRead
        rightRead
  | bare =>
      intro field member
      cases member
  | exception | hint =>
      refine List.forall_mem_singleton.mpr ?_
      exact sameField_code leftFour rightFour same (by decide) (by decide)
        leftRead rightRead
  | fromSystem =>
      exact sameFields_fromSystem leftFour rightFour same leftRead rightRead
  | toSystem =>
      exact sameFields_toSystem leftFour rightFour same leftRead rightRead
  | literal =>
      have leftDemand := leftMeets _ (List.mem_singleton_self _)
      have rightDemand := rightMeets _ (List.mem_singleton_self _)
      rw [Guard.holds, decide_eq_true_eq] at leftDemand rightDemand
      exact sameFields_literal leftFour rightFour same
        (sameFlag (by decide)) leftDemand rightDemand leftRead rightRead
  | pair =>
      have leftDemand := leftMeets _ (List.mem_singleton_self _)
      have rightDemand := rightMeets _ (List.mem_singleton_self _)
      rw [Guard.holds, decide_eq_true_eq] at leftDemand rightDemand
      exact sameFields_pair leftFour rightFour same leftDemand rightDemand
        leftRead rightRead
  | unsignedOffset =>
      exact sameFields_unsignedOffset leftFour rightFour same leftRead
        rightRead
  | indexed =>
      have leftDemand := leftMeets _ (List.mem_singleton_self _)
      have rightDemand := rightMeets _ (List.mem_singleton_self _)
      rw [Guard.holds, decide_eq_true_eq] at leftDemand rightDemand
      exact sameFields_indexed leftFour rightFour same leftDemand rightDemand
        leftRead rightRead
  | registerOffset =>
      exact sameFields_registerOffset leftFour rightFour same leftRead
        rightRead
  | exclusive =>
      exact sameFields_exclusive leftFour rightFour same leftRead rightRead
  | exclusiveStore =>
      exact sameFields_exclusiveStore leftFour rightFour same leftRead
        rightRead
  | structures =>
      exact sameFields_structures leftFour rightFour same leftRead rightRead
  | structuresUpdating =>
      exact sameFields_structuresUpdating leftFour rightFour same leftRead
        rightRead
  | logicalRegister | addRegister =>
      exact sameFields_shifted leftFour rightFour same leftRead rightRead
  | select =>
      exact sameFields_select leftFour rightFour same leftRead rightRead
  | twoSources =>
      exact sameFields_twoSources leftFour rightFour same leftRead rightRead
  | threeSources =>
      exact sameFields_threeSources leftFour rightFour same leftRead
        rightRead
  | floatConstant =>
      exact sameFields_floatConstant leftFour rightFour same leftRead
        rightRead
  | floatArithmetic =>
      exact sameFields_floatArithmetic leftFour rightFour same leftRead
        rightRead

end Words

/-! ## The paths of the decode program -/

/-- The logical instructions with a constant. -/
def logicalConstants : List Opcode :=
  [.andImmediate, .orrImmediate, .eorImmediate, .andsImmediate]

/-- The accesses of a byte. -/
def byteAccesses : List Opcode :=
  [.strb, .ldrb]

/-- Whether a path for an opcode leaves open what the format may leave open. -/
def mayBlur (opcode : Nat) (path : Path) : Format → Bool
  | .logicalConstant => (logicalConstants.map Opcode.id).contains opcode
  | .registerOffset =>
    (byteAccesses.map Opcode.id).contains opcode ||
      path.fixedBits.verdict 30 2 0 = some false
  | _ => true

/-- Whether a path meets what its format demands. -/
def pathIsSound (path : Path) : Bool :=
  match path.ending with
  | .decode opcode number _ _ =>
    match Format.ofId? number with
    | some format =>
      mayBlur opcode path format &&
        format.demands.all fun guard =>
          guard.verdict path.fixedBits (fun _ => none) = some true
    | none => false
  | .fail => true

/-- Whether the formats of two paths of one opcode tell their words apart. -/
def formatsTellApart (left right : Path) (format other : Format) : Bool :=
  if format = other then
    left.fixAlike 32 (fieldsMask (format.fields ++ format.blurred)) right
  else
    format.addressing?.isSome && other.addressing?.isSome &&
      format.addressing? ≠ other.addressing?

/-- Whether two paths, if they have one opcode, tell their words apart. -/
def pathsTellApart (left right : Path) : Bool :=
  match left.ending, right.ending with
  | .decode opcode number _ _, .decode otherOpcode otherNumber _ _ =>
    opcode ≠ otherOpcode ||
      match Format.ofId? number, Format.ofId? otherNumber with
      | some format, some other => formatsTellApart left right format other
      | _, _ => false
  | _, _ => true

/-- The paths that some words may take. -/
def decodingPaths : List Path :=
  program.paths.filter fun path =>
    path.decodes && path.possible path.fixedBits fun _ => none

theorem validate_table :
    table.validate Format.count Requirement.count = .ok () :=
  Table.validate_of_isOk (by decide +kernel)

theorem pathsAreSound_eq_true :
    (decodingPaths.all fun path =>
        pathIsSound path && decodingPaths.all (pathsTellApart path)) =
      true := by
  decide +kernel

/-- How a word decodes to an instruction. -/
structure Decodes
    (word : Word)
    (raw : RawInstruction)
    (path : Path)
    (format : Format) :
    Prop where
  four : word.size = 4
  listed : path ∈ decodingPaths
  ends :
    ∃ number zeros ones,
      path.ending = .decode raw.opcode number zeros ones ∧
        Format.ofId? number = some format
  agrees : path.fixedBits.Agrees word.value
  reads :
    ∃ result,
      format.read word = .ok result ∧ raw.operands = result.operands

theorem exists_decodes
    {word : Word}
    (four : word.size = 4)
    {features : Features}
    {raw : RawInstruction}
    (decoded : isa.run table word features = .ok raw)
    (success : raw.status = .success) :
    ∃ path format, Decodes word raw path format := by
  have evaluates :=
    isa.run_toTable_of_validate features validate_table
      (show word.width = 32 by rw [Word.width, four])
  rw [table, evaluates] at decoded
  rcases Program.exists_path_of_success decoded success with
    ⟨path, member, holds, number, zeros, ones, ending, met, finished⟩
  rcases Isa.exists_reading_of_finishDecode finished with
    ⟨result, read, -, operands, -⟩
  have agrees := Path.agrees_fixedBits holds ending met
  have possible : path.possible path.fixedBits fun _ => none :=
    Path.possible_of_holds agrees (fun _ _ foreseen => by cases foreseen)
      holds
  have listed : path ∈ decodingPaths := by
    refine List.mem_filter.mpr ⟨member, ?_⟩
    rw [Path.decodes, ending, possible]
    rfl
  simp only [isa] at read
  cases known : Format.ofId? number with
  | none =>
      rw [known] at read
      cases read
  | some format =>
      rw [known] at read
      exact ⟨path, format, four, listed,
        ⟨number, zeros, ones, ending, known⟩, agrees, result, read,
        operands⟩

namespace Decodes

section Word

variable
  {word : Word}
  {raw : RawInstruction}
  {path : Path}
  {format : Format}
  (decodes : Decodes word raw path format)
include decodes

theorem isSound :
    mayBlur raw.opcode path format ∧
      ∀ guard ∈ format.demands,
        guard.holds (fun _ => false) word.value := by
  rcases decodes.ends with ⟨number, zeros, ones, ending, known⟩
  have sound := List.all_eq_true.mp pathsAreSound_eq_true path decodes.listed
  rw [Bool.and_eq_true, pathIsSound, ending] at sound
  simp only [known, Bool.and_eq_true, List.all_eq_true, decide_eq_true_eq]
    at sound
  refine ⟨sound.1.1, ?_⟩
  intro guard demanded
  exact Guard.holds_of_verdict decodes.agrees
    (fun _ _ foreseen => by cases foreseen) (sound.1.2 guard demanded)

theorem addressing_eq
    {way : Addressing}
    (known : format.addressing? = some way) :
    addressing raw.operands = way := by
  rcases decodes.reads with ⟨result, read, operands⟩
  rw [operands]
  exact addressing_of_read decodes.four read known

end Word

section Words

variable
  {left right : Word}
  {raw : RawInstruction}
  {leftPath rightPath : Path}
  {format other : Format}

/-- Words of one instruction are read in one format. -/
theorem format_eq
    (leftDecodes : Decodes left raw leftPath format)
    (rightDecodes : Decodes right raw rightPath other) :
    format = other ∧
      leftPath.fixAlike 32 (fieldsMask (format.fields ++ format.blurred))
        rightPath := by
  rcases leftDecodes.ends with ⟨number, _, _, ending, known⟩
  rcases rightDecodes.ends with
    ⟨otherNumber, _, _, otherEnding, otherKnown⟩
  have sound :=
    List.all_eq_true.mp pathsAreSound_eq_true leftPath leftDecodes.listed
  rw [Bool.and_eq_true] at sound
  have apart := List.all_eq_true.mp sound.2 rightPath rightDecodes.listed
  rw [pathsTellApart, ending, otherEnding] at apart
  simp only [known, otherKnown, ne_eq, not_true_eq_false, decide_false,
    Bool.false_or, formatsTellApart] at apart
  split at apart
  · next same => exact ⟨same, apart⟩
  · simp only [Bool.and_eq_true, Option.isSome_iff_exists,
      decide_eq_true_eq] at apart
    rcases apart with ⟨⟨⟨way, leftKnown⟩, otherWay, rightKnown⟩, differ⟩
    refine absurd ?_ differ
    rw [leftKnown, rightKnown, ← leftDecodes.addressing_eq leftKnown,
      ← rightDecodes.addressing_eq rightKnown]

/-- All bits but those that the format leaves open are the same. -/
theorem testBit_eq
    (leftDecodes : Decodes left raw leftPath format)
    (rightDecodes : Decodes right raw rightPath format)
    {place : Nat}
    (inside : place < 32)
    (clear : (fieldsMask format.blurred).testBit place = false) :
    left.value.testBit place = right.value.testBit place := by
  have alike := (format_eq leftDecodes rightDecodes).2
  have outside
      {place : Nat}
      (inside : place < 32)
      (uncovered :
        (fieldsMask (format.fields ++ format.blurred)).testBit place =
          false) :
      left.value.testBit place = right.value.testBit place :=
    Path.testBit_eq_of_fixAlike alike leftDecodes.agrees rightDecodes.agrees
      inside uncovered
  rcases leftDecodes.reads with ⟨leftResult, leftRead, leftOperands⟩
  rcases rightDecodes.reads with ⟨rightResult, rightRead, rightOperands⟩
  have sameFields :=
    sameFields_of_read leftDecodes.four rightDecodes.four
      (leftOperands.symm.trans rightOperands) (outside (by decide))
      leftDecodes.isSound.2 rightDecodes.isSound.2 leftRead rightRead
  cases covered : (fieldsMask format.fields).testBit place with
  | true => exact testBit_eq_of_sameFields sameFields covered
  | false =>
      refine outside inside ?_
      rw [fieldsMask_append, Nat.testBit_or, covered, clear]
      rfl

/-- A format that leaves no bits open. -/
theorem value_eq
    (leftDecodes : Decodes left raw leftPath format)
    (rightDecodes : Decodes right raw rightPath format)
    (sharp : format.blurred = []) :
    left.value = right.value := by
  refine eq_of_testBit_of_lt (value_lt_of_size leftDecodes.four)
    (value_lt_of_size rightDecodes.four) fun place inside => ?_
  refine testBit_eq leftDecodes rightDecodes inside ?_
  rw [sharp]
  exact Nat.zero_testBit place

end Words

end Decodes

/-! ## Words that are not told apart -/

/--
Logical instructions with a constant whose words differ only in bits of the
rotation that reach beyond the period.
-/
structure RotationTwins (raw : RawInstruction) (left right : Nat) :
    Prop where
  logical : ∃ opcode ∈ logicalConstants, raw.opcode = opcode.id
  beyond :
    ∀ place, left.testBit place ≠ right.testBit place →
      16 + periodExponent left ≤ place ∧ place < 22

/--
Accesses of a byte at the sum of two registers whose words differ only in the
bit that scales the second one.
-/
structure ScaleTwins (raw : RawInstruction) (left right : Nat) : Prop where
  byte : ∃ opcode ∈ byteAccesses, raw.opcode = opcode.id
  index : addressing raw.operands = .index
  scale : ∀ place, left.testBit place ≠ right.testBit place → place = 12

section Twins

variable
  {left right : Word}
  {raw : RawInstruction}
  {leftPath rightPath : Path}

/-- Words differ only in bits that exist, and that the format leaves open. -/
theorem open_of_testBit_ne
    {format : Format}
    (leftDecodes : Decodes left raw leftPath format)
    (rightDecodes : Decodes right raw rightPath format)
    {start length : Nat}
    (opens : format.blurred = [(start, length)])
    {place : Nat}
    (differ : left.value.testBit place ≠ right.value.testBit place) :
    start ≤ place ∧ place < start + length := by
  refine Classical.byContradiction fun outside => differ ?_
  by_cases inside : place < 32
  · refine Decodes.testBit_eq leftDecodes rightDecodes inside ?_
    rw [opens, fieldsMask, fieldsMask, Nat.or_zero, testBit_fieldMask,
      decide_eq_false outside]
  · have beyond {word : Word} (four : word.size = 4) :
        word.value.testBit place = false :=
      Nat.testBit_lt_two_pow
        (Nat.lt_of_lt_of_le (value_lt_of_size four)
          (Nat.pow_le_pow_right (by decide) (Nat.not_lt.mp inside)))
    rw [beyond leftDecodes.four, beyond rightDecodes.four]

theorem rotationTwins_of_decodes
    (leftDecodes : Decodes left raw leftPath .logicalConstant)
    (rightDecodes : Decodes right raw rightPath .logicalConstant) :
    RotationTwins raw left.value right.value := by
  have logical := leftDecodes.isSound.1
  rw [mayBlur, List.contains_iff_mem, List.mem_map] at logical
  rcases logical with ⟨opcode, listed, same⟩
  rcases leftDecodes.reads with ⟨leftResult, leftRead, leftOperands⟩
  rcases rightDecodes.reads with ⟨rightResult, rightRead, rightOperands⟩
  have sameFields :=
    sameFields_logicalConstant leftDecodes.four rightDecodes.four
      (leftOperands.symm.trans rightOperands) leftRead rightRead
  have rotation := (List.forall_mem_cons.mp sameFields).1
  refine ⟨⟨opcode, listed, same.symm⟩, ?_⟩
  intro place differ
  have within := open_of_testBit_ne leftDecodes rightDecodes rfl differ
  refine ⟨?_, within.2⟩
  exact Nat.le_of_not_lt fun below =>
    differ (rotation.testBit_eq within.1 below)

theorem eq_or_scaleTwins_of_decodes
    (leftDecodes : Decodes left raw leftPath .registerOffset)
    (rightDecodes : Decodes right raw rightPath .registerOffset) :
    left.value = right.value ∨ ScaleTwins raw left.value right.value := by
  have onlyScale
      {place : Nat}
      (differ : left.value.testBit place ≠ right.value.testBit place) :
      place = 12 := by
    have within := open_of_testBit_ne leftDecodes rightDecodes rfl differ
    omega
  by_cases single : bitField left.value 30 2 = 0
  · refine .inr ⟨?_, leftDecodes.addressing_eq rfl, fun _ => onlyScale⟩
    have blurs := leftDecodes.isSound.1
    rw [mayBlur, Bool.or_eq_true, decide_eq_true_eq] at blurs
    rcases blurs with byte | several
    · rw [List.contains_iff_mem, List.mem_map] at byte
      rcases byte with ⟨opcode, listed, same⟩
      exact ⟨opcode, listed, same.symm⟩
    · have judged := leftDecodes.agrees.verdict several
      rw [decide_eq_false_iff_not] at judged
      exact absurd single judged
  · rcases leftDecodes.reads with ⟨leftResult, leftRead, leftOperands⟩
    rcases rightDecodes.reads with ⟨rightResult, rightRead, rightOperands⟩
    have sameScale :=
      testBit_eq_of_readRegisterOffset leftDecodes.four rightDecodes.four
        (leftOperands.symm.trans rightOperands) leftRead rightRead single
    left
    apply Nat.eq_of_testBit_eq
    intro place
    refine Classical.byContradiction fun differ => ?_
    cases onlyScale differ
    exact differ sameScale

end Twins

/--
Words that decode to one instruction in earnest are the same word, or they
differ only in bits that have no meaning in their instruction.
-/
theorem eq_or_twins_of_run
    {left right : Word}
    (leftFour : left.size = 4)
    (rightFour : right.size = 4)
    {features : Features}
    {raw : RawInstruction}
    (leftDecoded : isa.run table left features = .ok raw)
    (rightDecoded : isa.run table right features = .ok raw)
    (success : raw.status = .success) :
    left.value = right.value ∨ RotationTwins raw left.value right.value ∨
      ScaleTwins raw left.value right.value := by
  rcases exists_decodes leftFour leftDecoded success with
    ⟨leftPath, format, leftDecodes⟩
  rcases exists_decodes rightFour rightDecoded success with
    ⟨rightPath, other, rightDecodes⟩
  cases (leftDecodes.format_eq rightDecodes).1
  cases format with
  | logicalConstant =>
      exact .inr (.inl (rotationTwins_of_decodes leftDecodes rightDecodes))
  | registerOffset =>
      rcases eq_or_scaleTwins_of_decodes leftDecodes rightDecodes with
        same | twins
      · exact .inl same
      · exact .inr (.inr twins)
  | _ => exact .inl (leftDecodes.value_eq rightDecodes rfl)

/-- A word of `and w0, w1, #0x55555555`. -/
def evenBitsWord : Word :=
  ⟨[0x20, 0xf0, 0x00, 0x12], 0x1000, 0x1200f020, by simp, by decide⟩

/-- The same word, with a rotation by a whole period. -/
def rotatedEvenBitsWord : Word :=
  ⟨[0x20, 0xf0, 0x02, 0x12], 0x1000, 0x1202f020, by simp, by decide⟩

/-- What both words decode to. -/
def evenBits : RawInstruction where
  opcode := Opcode.andImmediate.id
  operands :=
    [.register (generalRegister true false 0),
      .register (generalRegister false false 1), .unsigned 0x55555555 32]
  status := .success
  specifics := .arm64 {}

/-- Words that are not told apart do exist. -/
theorem eq_or_twins_of_run_evenBits :
    isa.run table evenBitsWord .empty = .ok evenBits ∧
      isa.run table rotatedEvenBitsWord .empty = .ok evenBits ∧
      evenBits.status = .success ∧
      (evenBitsWord.value = rotatedEvenBitsWord.value ∨
        RotationTwins evenBits evenBitsWord.value
          rotatedEvenBitsWord.value ∨
        ScaleTwins evenBits evenBitsWord.value rotatedEvenBitsWord.value) := by
  have decoded : isa.run table evenBitsWord .empty = .ok evenBits := by rfl
  have rotated : isa.run table rotatedEvenBitsWord .empty = .ok evenBits := by
    rfl
  exact ⟨decoded, rotated, rfl, eq_or_twins_of_run rfl rfl decoded rotated rfl⟩

end MachineCode.Arm64
