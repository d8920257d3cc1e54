import MachineCode.Proofs.Alias
import MachineCode.Proofs.C64x.Layout
import MachineCode.Proofs.C64x.Sides
import MachineCode.Proofs.Families
import MachineCode.Proofs.Text

/-!
# Memory operands of C64x instructions

A load or store encodes the offset of its reference as a number of units, and
the size of a unit is the scale. The reference has the offset in bytes, and
its text counts units again, with the number that was encoded (`Encodes`). How
the address is formed can be read off the reference; the four values of the
mode field that form none are refused.
-/

namespace MachineCode.C64x

/-! ## Encoded offsets -/

/-- Whether a load or store has a long constant offset. -/
def hasLongOffset (value : Nat) : Bool :=
  bitField value 2 2 = 0b11

/-- Whether a word is a load or store with an addressing mode. -/
def hasAddressingMode (value : Nat) : Bool :=
  bitField value 2 2 = 0b01 &&
    (bitField value 8 1 = 0 || 2 ≤ bitField value 4 3)

/-- The encoded offset, of 15 bits if it is long and of five bits if not. -/
def encodedOffset (value : Nat) : Nat :=
  if hasLongOffset value then bitField value 8 15 else bitField value 13 5

/-- The number of bytes that an opcode loads or stores. -/
def Opcode.accessSize : Opcode → Nat
  | .ldb | .ldbu | .stb => 1
  | .ldh | .ldhu | .sth => 2
  | .ldw | .ldnw | .stw | .stnw => 4
  | .lddw | .ldndw | .stdw | .stndw => 8
  | _ => 0

/-- The opcodes of unaligned doublewords. -/
def Opcode.isUnalignedDouble (opcode : Opcode) : Bool :=
  opcode = .ldndw || opcode = .stndw

/-- The unit in which an offset is counted. -/
def Opcode.scaleOf (opcode : Opcode) (value : Nat) : Nat :=
  if opcode.isUnalignedDouble then
    if value.testBit 23 then 8 else 1
  else
    opcode.accessSize

/-- The value of the mode field that forms an address in a way. -/
def modeNumber (subtract : Bool) (update : IndexMode) (indexed : Bool) : Nat :=
  (match update with
    | .offset => 0b0000
    | .preIndex => 0b1000
    | .postIndex => 0b1010) +
    (if indexed then 0b0100 else 0) +
    if subtract then 0 else 1

/-- A reference as it is written with a text for the offset. -/
def spelling (reference : MemoryReference) (offset : String) : String :=
  let base := (reference.base.map Register.name).getD ""
  let sign := if reference.subtract then "-" else "+"
  match reference.mode with
  | .offset => "*" ++ sign ++ base ++ "[" ++ offset ++ "]"
  | .preIndex => "*" ++ sign ++ sign ++ base ++ "[" ++ offset ++ "]"
  | .postIndex => "*" ++ base ++ sign ++ sign ++ "[" ++ offset ++ "]"

/-- Whether a reference means and spells what a word encodes. -/
structure Encodes
    (opcode : Opcode)
    (value : Nat)
    (reference : MemoryReference) :
    Prop where
  scale_eq : reference.scale = opcode.scaleOf value
  /-- A constant offset is counted in units of the scale. -/
  constant :
    reference.index = none →
      reference.displacement.natAbs =
          encodedOffset value * opcode.scaleOf value ∧
        (if reference.subtract then reference.displacement ≤ 0
          else 0 ≤ reference.displacement) ∧
        referenceText reference =
          spelling reference (toString (encodedOffset value))
  /-- An offset in a register is not known. -/
  indexed :
    ∀ index ∈ reference.index,
      files.get? (bitField value 7 1) (bitField value 13 5) = some index ∧
        reference.displacement = 0
  /-- A long offset is a constant, and it is added. -/
  far :
    hasLongOffset value →
      reference.index = none ∧ reference.subtract = false ∧
        reference.mode = .offset
  /-- The mode can be told from the reference. -/
  mode :
    hasLongOffset value = false →
      bitField value 9 4 =
        modeNumber reference.subtract reference.mode reference.index.isSome

/-! ## References -/

section References

variable {opcode : Opcode} {value : Nat}

/-- The units of a constant offset can be counted again. -/
theorem offsetText_eq
    {reference : MemoryReference}
    {offset : Nat}
    (constant : reference.index = none)
    (scaled : 0 < reference.scale)
    (distance :
      reference.displacement.natAbs = offset * reference.scale) :
    offsetText reference = toString offset := by
  have unit : max reference.scale 1 = reference.scale := by omega
  rw [offsetText, constant]
  simp only [distance, unit]
  rw [Nat.mul_div_cancel _ scaled]

theorem referenceText_eq (reference : MemoryReference) :
    referenceText reference =
      spelling reference (offsetText reference) := by
  rw [referenceText, spelling]
  cases reference.mode <;> simp only [String.append_assoc]

/-- The number of a mode can be told from what the mode says. -/
theorem number_eq_of_mode
    {number : Nat}
    {mode : AddressingMode}
    (selected : addressingModes[number]?.join = some mode) :
    number = modeNumber mode.subtract mode.update mode.registerOffset := by
  have each :
      ∀ number < 16, ∀ mode ∈ addressingModes[number]?.join,
        number = modeNumber mode.subtract mode.update mode.registerOffset := by
    decide
  by_cases inside : number < 16
  · exact each number inside mode selected
  · rw [List.getElem?_eq_none (by simpa [addressingModes] using inside)]
      at selected
    cases selected

/-- A distance in bytes has the sign of the subtraction. -/
theorem signed_distance
    (subtract : Bool)
    (offset scale : Nat) :
    let distance : Int := offset * scale
    let displacement := if subtract then -distance else distance
    displacement.natAbs = offset * scale ∧
      (if subtract then displacement ≤ 0 else 0 ≤ displacement) := by
  have positive : (0 : Int) ≤ offset * scale :=
    Int.mul_nonneg (Int.natCast_nonneg _) (Int.natCast_nonneg _)
  cases subtract with
  | true =>
      constructor
      · change (-((offset : Int) * scale)).natAbs = _
        rw [Int.natAbs_neg, Int.natAbs_mul]
        rfl
      · change -((offset : Int) * scale) ≤ 0
        omega
  | false =>
      constructor
      · change ((offset : Int) * scale).natAbs = _
        rw [Int.natAbs_mul]
        rfl
      · exact positive

/-- A reference with a mode encodes its offset in five bits. -/
theorem encodes_referenceOf
    {mode : AddressingMode}
    (selected : addressingModes[bitField value 9 4]?.join = some mode)
    (near : hasLongOffset value = false)
    {scale : Nat}
    (same : scale = opcode.scaleOf value)
    (scaled : 0 < scale)
    (size : Nat) :
    Encodes opcode value (mode.referenceOf value size scale) := by
  have number := number_eq_of_mode selected
  have offset : encodedOffset value = bitField value 13 5 := by
    rw [encodedOffset, near]
    rfl
  rw [AddressingMode.referenceOf]
  cases indexed : mode.registerOffset with
  | true =>
      rw [if_pos rfl]
      constructor
      case scale_eq => exact same
      case constant => exact fun constant => by cases constant
      case indexed =>
        intro index found
        cases found
        exact ⟨get?_files (bitField_lt ..) (bitField_lt ..), rfl⟩
      case far =>
        intro far
        rw [near] at far
        cases far
      case mode =>
        intro _
        rw [indexed] at number
        exact number
  | false =>
      rw [if_neg Bool.false_ne_true]
      rcases signed_distance mode.subtract (bitField value 13 5) scale with
        ⟨distance, sign⟩
      constructor
      case scale_eq => exact same
      case constant =>
        intro constant
        refine ⟨?_, sign, ?_⟩
        · rw [offset, ← same]
          exact distance
        · rw [referenceText_eq, offset,
            offsetText_eq constant scaled distance]
      case indexed => exact fun index found => by cases found
      case far =>
        intro far
        rw [near] at far
        cases far
      case mode =>
        intro _
        rw [indexed] at number
        exact number

/-- A far reference encodes its offset in 15 bits. -/
theorem encodes_farReference
    (far : hasLongOffset value)
    {size : Nat}
    (same : size = opcode.scaleOf value)
    (scaled : 0 < size) :
    Encodes opcode value (farReference value size) := by
  have offset : encodedOffset value = bitField value 8 15 := if_pos far
  rcases signed_distance false (bitField value 8 15) size with
    ⟨distance, sign⟩
  constructor
  case scale_eq => exact same
  case constant =>
    intro constant
    refine ⟨?_, sign, ?_⟩
    · rw [offset, ← same]
      exact distance
    · rw [referenceText_eq, offset, offsetText_eq constant scaled distance]
  case indexed => exact fun index found => by cases found
  case far => exact fun _ => ⟨rfl, rfl, rfl⟩
  case mode =>
    intro near
    rw [far] at near
    cases near

end References

/-! ## Formats -/

/-- The number of bytes that a format accesses. -/
def Format.accessSize : Format → Nat
  | .load1 | .store1 | .loadFar1 | .storeFar1 => 1
  | .load2 | .store2 | .loadFar2 | .storeFar2 => 2
  | .load4 | .store4 | .loadFar4 | .storeFar4 => 4
  | .load8 | .store8 | .loadUnaligned8 | .storeUnaligned8 => 8
  | _ => 0

/-- The formats of unaligned doublewords. -/
def Format.isUnalignedDouble (format : Format) : Bool :=
  format = .loadUnaligned8 || format = .storeUnaligned8

/-- The formats with a long offset. -/
def Format.isFar : Format → Bool
  | .loadFar1 | .loadFar2 | .loadFar4 | .storeFar1 | .storeFar2
  | .storeFar4 =>
    true
  | _ => false

/-- The formats with an addressing mode. -/
def Format.hasMode (format : Format) : Bool :=
  format.isAccess && !format.isFar

/-- Whether a format accesses as many bytes as an opcode, in the same way. -/
def Format.accessesLike (opcode : Opcode) (format : Format) : Bool :=
  opcode.accessSize = format.accessSize &&
    opcode.isUnalignedDouble = format.isUnalignedDouble

theorem Direction.memory_mem_operands
    (direction : Direction)
    (reference : MemoryReference)
    (data : Operand) :
    .memory reference ∈ direction.operands (.memory reference) data := by
  cases direction <;> simp [operands]

section Formats

variable
  {opcode : Opcode}
  {word : Word}
  {result : Reading}
  (four : word.size = 4)
include four

theorem encodes_readAccess
    (near : hasLongOffset word.value = false)
    {direction : Direction}
    {size : Nat}
    (same : size = opcode.scaleOf word.value)
    (scaled : 0 < size)
    (read : readAccess direction size word = .ok result) :
    ∃ reference,
      .memory reference ∈ result.operands ∧
        Encodes opcode word.value reference := by
  rcases exists_of_readAccess four read with ⟨under, mode, selected, -, rfl⟩
  exact ⟨_, direction.memory_mem_operands ..,
    encodes_referenceOf selected near same scaled size⟩

theorem encodes_readUnalignedDouble
    (near : hasLongOffset word.value = false)
    (double : opcode.isUnalignedDouble)
    {direction : Direction}
    (read : readUnalignedDouble direction word = .ok result) :
    ∃ reference,
      .memory reference ∈ result.operands ∧
        Encodes opcode word.value reference := by
  rcases exists_of_readUnalignedDouble four read with
    ⟨under, mode, selected, rfl⟩
  refine ⟨_, direction.memory_mem_operands ..,
    encodes_referenceOf selected near ?_ ?_ 8⟩
  · exact (if_pos double).symm
  · split <;> decide

theorem encodes_readFar
    (far : hasLongOffset word.value)
    {direction : Direction}
    {size : Nat}
    (same : size = opcode.scaleOf word.value)
    (scaled : 0 < size)
    (read : readFar direction size word = .ok result) :
    ∃ reference,
      .memory reference ∈ result.operands ∧
        Encodes opcode word.value reference := by
  rcases exists_of_readFar four read with ⟨under, rfl⟩
  exact ⟨_, direction.memory_mem_operands ..,
    encodes_farReference far same scaled⟩

/-- What a format of an access reads is what its word encodes. -/
theorem Format.encodes_read
    {format : Format}
    (accesses : format.isAccess)
    (like : format.accessesLike opcode)
    (distance : hasLongOffset word.value = format.isFar)
    (read : format.read word = .ok result) :
    ∃ reference,
      .memory reference ∈ result.operands ∧
        Encodes opcode word.value reference := by
  rw [accessesLike, Bool.and_eq_true, decide_eq_true_eq, decide_eq_true_eq]
    at like
  have scale (single : format.isUnalignedDouble = false) :
      format.accessSize = opcode.scaleOf word.value := by
    rw [Opcode.scaleOf, like.2, single, ← like.1]
    rfl
  cases format with
  | load1 | load2 | load4 | load8 | store1 | store2 | store4 | store8 =>
      exact encodes_readAccess four distance (scale rfl) (by decide) read
  | loadUnaligned8 | storeUnaligned8 =>
      exact encodes_readUnalignedDouble four distance like.2 read
  | loadFar1 | loadFar2 | loadFar4 | storeFar1 | storeFar2 | storeFar4 =>
      exact encodes_readFar four distance (scale rfl) (by decide) read
  | _ => cases accesses

end Formats

/-! ## Paths of the decode program -/

/-- Whether a path leads to a format that suits its opcode and its tests. -/
def isAddressed (path : Path) : Bool :=
  match path.ending with
  | .fail => true
  | .decode number formatNumber _ _ =>
    match Opcode.ofId? number, Format.ofId? formatNumber with
    | some opcode, some format =>
      opcode.isAccess = format.isAccess &&
        (!format.isAccess ||
          format.accessesLike opcode &&
            .field 2 2 (if format.isFar then 0b11 else 0b01) ∈ path.guards)
    | _, _ => false

theorem isAddressed_of_mem : ∀ path ∈ program.paths, isAddressed path := by
  decide +kernel

theorem decodeRaw_eq_eval
    (options : Options)
    {word : Word}
    (four : word.size = 4) :
    Engine.decodeRaw ⟨isa, options⟩ word =
      program.eval isa options.features word := by
  rw [(laysOut word.size).decodeRaw_eq, four]
  rfl

/-- What decodes to a load or a store has a reference that is encoded. -/
theorem exists_encodes_of_decodeRaw
    {options : Options}
    {word : Word}
    {raw : RawInstruction}
    (decoded : Engine.decodeRaw ⟨isa, options⟩ word = .ok raw)
    {opcode : Opcode}
    (named : raw.opcode = opcode.id)
    (accesses : opcode.isAccess) :
    ∃ reference,
      .memory reference ∈ raw.operands ∧
        Encodes opcode word.value reference := by
  rcases Engine.run_of_decodeRaw (fun _ => rfl) decoded with ⟨four, -⟩
  rw [decodeRaw_eq_eval options four] at decoded
  rcases Program.exists_path_of_eval decoded with
    ⟨path, member, holds, number, formatNumber, zeros, ones, ending,
      finished⟩
  rcases Isa.exists_reading_of_finishDecode finished with
    ⟨result, read, same, operands, -⟩
  have addressed := isAddressed_of_mem path member
  simp only [isAddressed, ending, ← same, named, Opcode.ofId?_id]
    at addressed
  cases known : Format.ofId? formatNumber with
  | none =>
      rw [known] at addressed
      cases addressed
  | some format =>
      simp only [known, accesses, Bool.and_eq_true, Bool.or_eq_true,
        Bool.not_eq_true', decide_eq_true_eq] at addressed
      rcases addressed with ⟨alike, idle | ⟨like, tested⟩⟩
      · rw [idle] at alike
        cases alike
      have readFormat : format.read word = .ok result := by
        simpa [isa, known] using read
      rw [operands]
      apply format.encodes_read four alike.symm like _ readFormat
      have distance := (Path.decide_of_mem holds).1 tested
      rw [decide_eq_true_eq] at distance
      rw [hasLongOffset, distance]
      cases format.isFar <;> rfl

/-! ## Preferred forms -/

/-- No idiom spells a load or a store, or comes from one. -/
theorem canonicalize_access
    {raw : Form}
    {opcode : Opcode}
    (named : (Alias.canonicalize idioms raw).opcode = opcode.id)
    (accesses : opcode.isAccess) :
    Alias.canonicalize idioms raw = raw := by
  rcases Alias.canonicalize_eq_or_exists idioms raw with same | applied
  · exact same
  · rcases applied with ⟨rule, member, applies⟩
    rcases Alias.exists_of_form? applies with ⟨-, operands, -, result⟩
    have each :
        ∀ rule ∈ idioms,
          (Opcode.ofId? rule.preferred).map Opcode.isAccess =
            some false := by
      decide
    have computes := each rule member
    rw [result] at named
    change rule.preferred = opcode.id at named
    rw [named, Opcode.ofId?_id, Option.map_some, accesses] at computes
    cases computes

/-! ## Text -/

theorem suffix_joinParts (first second : String) :
    second.toList <:+ (joinParts first second).toList := by
  rw [joinParts]
  split
  · exact List.suffix_rfl
  split
  · next empty =>
    rw [String.isEmpty_iff] at empty
    simp [empty]
  · simp only [String.toList_append]
    exact List.suffix_append ..

/-- The text of an instruction has the texts of its memory operands. -/
theorem infix_operandText
    {form : Form}
    {reference : MemoryReference}
    (member : .memory reference ∈ form.operands)
    (facts : C64xSpecifics)
    (options : Options) :
    (referenceText reference).toList <:+:
      (render form (.c64x facts) options).operandText.toList := by
  have listed :
      referenceText reference ∈
        form.operands.map
          (operandText (form.opcode = Opcode.mvkh.id) options) :=
    List.mem_map.mpr ⟨_, member, rfl⟩
  exact ((Text.infix_intercalate listed).trans
    (suffix_joinParts ..).isInfix).trans (prefix_joinParts ..).isInfix

/-! ## Reserved modes -/

/-- Whether the field of the predicate has a reserved value. -/
def hasReservedPredicate (value : Nat) : Bool :=
  bitField value 29 3 = 0b111 || bitField value 28 4 = 0b0001

/-- The cause for which a word with a reserved mode is refused. -/
def modeFault (value : Nat) : OperandError :=
  if hasReservedPredicate value then
    .reserved "creg" (bitField value 28 4)
  else
    .reserved "addressing mode" (bitField value 9 4)

section Refused

variable {word : Word} (four : word.size = 4)
include four

/-- The predicate is told by four bits, unless they are reserved. -/
theorem predicate_eq :
    predicate word =
      if bitField word.value 29 3 = 0 && !word.value.testBit 28 then
        .ok none
      else
        match predicateRegister? (bitField word.value 29 3) with
        | some (side, number) =>
          .ok (some ⟨generalOf side number, word.value.testBit 28⟩)
        | none => .error (.reserved "creg" (bitField word.value 28 4)) := by
  simp (disch := decide) only [predicate, field_eq_ok_of_size four,
    flag_eq_ok_of_size four, ok_bind]
  split
  · rfl
  cases selected : predicateRegister? (bitField word.value 29 3) with
  | none => rfl
  | some found =>
      have each :
          ∀ selected < 8, ∀ found ∈ predicateRegister? selected,
            found.1 < 2 ∧ found.2 < 32 := by
        decide
      rcases each _ (bitField_lt ..) found selected with ⟨known, small⟩
      rcases found with ⟨side, number⟩
      simp only [general_eq known small, sourceSide_false, ok_bind]
      rfl

theorem predicate_of_reserved
    (reserved : hasReservedPredicate word.value) :
    predicate word =
      .error (.reserved "creg" (bitField word.value 28 4)) := by
  rw [hasReservedPredicate, Bool.or_eq_true, decide_eq_true_eq,
    decide_eq_true_eq] at reserved
  rw [predicate_eq four]
  rcases reserved with all | alone
  · rw [all]
    rfl
  · have none : bitField word.value 29 3 = 0 := by
      rw [bitField] at alone ⊢
      omega
    have zero : word.value.testBit 28 = true := by
      rw [Nat.testBit_eq_decide_div_mod_eq, decide_eq_true_eq]
      rw [bitField] at alone
      omega
    rw [none, zero]
    rfl

theorem exists_predicate
    (unreserved : hasReservedPredicate word.value = false) :
    ∃ under, predicate word = .ok under := by
  rw [hasReservedPredicate, Bool.or_eq_false_iff, decide_eq_false_iff_not,
    decide_eq_false_iff_not] at unreserved
  rcases unreserved with ⟨notAll, notAlone⟩
  rw [predicate_eq four]
  split
  · exact ⟨none, rfl⟩
  next guarded =>
  cases selected : predicateRegister? (bitField word.value 29 3) with
  | some found => exact ⟨_, rfl⟩
  | none =>
      have each :
          ∀ selected < 8, predicateRegister? selected = none →
            selected = 0 ∨ selected = 7 := by
        decide
      rcases each _ (bitField_lt ..) selected with zero | all
      · rw [zero] at guarded
        simp only [decide_true, Bool.true_and, Bool.not_eq_true',
          Bool.not_eq_false, Nat.testBit_eq_decide_div_mod_eq,
          decide_eq_true_eq] at guarded
        rw [bitField] at zero notAlone
        omega
      · exact absurd all notAll

/-- Facts are read just if the predicate is. -/
theorem facts_eq (slot : Slot) :
    slot.facts word =
      (predicate word).map (slot.factsUnder word) := by
  rw [Slot.facts]
  cases predicate word with
  | error cause => rfl
  | ok under =>
      simp (disch := decide) only [ok_bind, flag_eq_ok_of_size four]
      rfl

theorem readReference_of_reserved
    (reserved : addressingModes[bitField word.value 9 4]?.join = none)
    (side size scale : Nat) :
    readReference word side size scale =
      .error (.reserved "addressing mode" (bitField word.value 9 4)) := by
  simp (disch := decide) only [readReference, field_eq_ok_of_size four,
    ok_bind, selectMode, reserved]
  rfl

/-- A reading of facts, then a reference with a reserved mode, fails. -/
theorem facts_bind_of_reserved
    (slot : Slot)
    {rest : C64xSpecifics → Read Reading}
    (refuses :
      ∀ facts,
        rest facts =
          .error (.reserved "addressing mode" (bitField word.value 9 4))) :
    (slot.facts word >>= rest) = .error (modeFault word.value) := by
  rw [facts_eq four, modeFault]
  cases reserved : hasReservedPredicate word.value with
  | true =>
      rw [predicate_of_reserved four reserved]
      rfl
  | false =>
      rcases exists_predicate four reserved with ⟨under, known⟩
      rw [known]
      exact refuses _

/-- A word with a reserved mode is refused for that or for its predicate. -/
theorem Format.read_of_reserved
    {format : Format}
    (moded : format.hasMode)
    (reserved : addressingModes[bitField word.value 9 4]?.join = none) :
    format.read word = .error (modeFault word.value) := by
  have accesses (direction : Direction) (size : Nat) :
      readAccess direction size word = .error (modeFault word.value) := by
    simp (disch := decide) only [readAccess, field_eq_ok_of_size four,
      ok_bind]
    apply facts_bind_of_reserved four
    intro facts
    rw [readReference_of_reserved four reserved]
    rfl
  have doubles (direction : Direction) :
      readUnalignedDouble direction word =
        .error (modeFault word.value) := by
    simp (disch := decide) only [readUnalignedDouble,
      field_eq_ok_of_size four, flag_eq_ok_of_size four, ok_bind]
    apply facts_bind_of_reserved four
    intro facts
    rw [readReference_of_reserved four reserved]
    rfl
  cases format with
  | load1 | load2 | load4 | load8 | store1 | store2 | store4 | store8 =>
      exact accesses ..
  | loadUnaligned8 | storeUnaligned8 => exact doubles _
  | _ => cases moded

end Refused

/-- What is known of a word with an addressing mode. -/
def modeKnown (high middle : Nat) : Known :=
  (Known.field 2 2 0b01).both
    ((Known.field 8 1 high).both (Known.field 4 3 middle))

/-- Whether the decode program leads to a format with a mode. -/
def leadsToMode (known : Known) : Bool :=
  match program.paths.find? (Path.possible known fun _ => none) with
  | none => false
  | some path =>
    path.certain known (fun _ => none) &&
      match path.ending with
      | .fail => false
      | .decode _ number _ _ => (Format.ofId? number).any Format.hasMode

theorem leadsToMode_modeKnown :
    ∀ high < 2, ∀ middle < 8, high = 0 ∨ 2 ≤ middle →
      leadsToMode (modeKnown high middle) := by
  decide +kernel

/-- A word with an addressing mode is read in a format that has one. -/
theorem exists_mode_of_eval
    {word : Word}
    (moded : hasAddressingMode word.value)
    (features : Features) :
    ∃ opcode number format violated,
      Format.ofId? number = some format ∧
        format.hasMode ∧
        program.eval isa features word =
          isa.finishDecode word opcode number violated := by
  simp only [hasAddressingMode, Bool.and_eq_true, Bool.or_eq_true,
    decide_eq_true_eq] at moded
  rcases moded with ⟨form, kind⟩
  have agrees :
      (modeKnown (bitField word.value 8 1) (bitField word.value 4 3)).Agrees
        word.value :=
    (Known.agrees_field form).both
      ((Known.agrees_field rfl).both (Known.agrees_field rfl))
  have leads :=
    leadsToMode_modeKnown _ (bitField_lt ..) _ (bitField_lt ..) kind
  rw [leadsToMode] at leads
  split at leads
  · cases leads
  next path first =>
  rw [Bool.and_eq_true] at leads
  rcases leads with ⟨certain, ends⟩
  have taken :
      program.paths.find?
          (Path.holds (isa.grants · features) word.value) =
        some path :=
    Path.find?_holds_of_possible agrees
      (fun _ _ foreseen => by cases foreseen) first certain
  split at ends
  · cases ends
  next opcode number zeros ones ending =>
  rw [Option.any_eq_true_iff_get] at ends
  rcases ends with ⟨known, hasMode⟩
  refine ⟨opcode, number, _, violates word.value zeros ones,
    (Option.some_get known).symm, hasMode, ?_⟩
  rw [Program.eval, Program.eval?_eq_firstOutcome?, Path.firstOutcome?, taken,
    Option.map_some, Option.getD_some, ending]
  rfl

/-! ## Decoding -/

section Decoding

variable
  {options : Options}
  {word : Word}
  {wantDetail : Bool}

/-- A load or store has the reference that its word encodes, and spells it. -/
theorem exists_encodes_of_decodeWord
    {decoded : Decoded}
    (success :
      Engine.decodeWord ⟨isa, options⟩ word wantDetail = .ok decoded)
    {opcode : Opcode}
    (named : decoded.instruction.opcode = some opcode.id)
    (accesses : opcode.isAccess) :
    ∃ reference,
      .memory reference ∈ decoded.instruction.operands ∧
        Encodes opcode word.value reference ∧
        (referenceText reference).toList <:+:
          decoded.instruction.operandText.toList := by
  rcases Engine.exists_describe_of_decodeWord success with
    ⟨raw, info, read, -, rfl⟩
  have spelled : Alias.canonicalize idioms raw.form = raw.form :=
    canonicalize_access (Option.some.inj named) accesses
  change some (Alias.canonicalize idioms raw.form).opcode = _ at named
  rw [spelled] at named
  rcases exists_encodes_of_decodeRaw read (Option.some.inj named) accesses
    with ⟨reference, member, encodes⟩
  rcases exists_read_of_decodeRaw accessesAlike_of_mem read with
    ⟨four, rawOpcode, format, result, -, alike, readOperands, -, specifics⟩
  rcases format.announces_read four (of_decide_eq_true alike) readOperands
    with ⟨facts, isFacts, -⟩
  rw [isFacts] at specifics
  refine ⟨reference, ?_, encodes, ?_⟩
  · change _ ∈ (Alias.canonicalize idioms raw.form).operands
    rw [spelled]
    exact member
  · change
      _ <:+:
        (render (Alias.canonicalize idioms raw.form) raw.specifics
          options).operandText.toList
    rw [spelled, specifics]
    exact infix_operandText member facts options

/-- A word with a reserved mode does not decode. -/
theorem decodeWord_of_reserved
    (four : word.size = 4)
    (moded : hasAddressingMode word.value)
    (reserved : bitField word.value 9 4 ∈ [2, 3, 6, 7]) :
    Engine.decodeWord ⟨isa, options⟩ word wantDetail =
      .error (.invalidOperand word.address (modeFault word.value)) := by
  have missing : addressingModes[bitField word.value 9 4]?.join = none := by
    have each : ∀ mode ∈ [2, 3, 6, 7], addressingModes[mode]?.join = none := by
      decide
    exact each _ reserved
  rcases exists_mode_of_eval moded options.features with
    ⟨opcode, number, format, violated, known, hasMode, evaluated⟩
  have refused :
      isa.readOperands number word = .error (modeFault word.value) := by
    rw [← format.read_of_reserved four hasMode missing]
    simp [isa, known]
  rw [Engine.decodeWord, decodeRaw_eq_eval options four, evaluated,
    Isa.finishDecode, refused]

end Decoding

/--
Loads and stores mean and print the offset that is encoded, and no address is
formed in a reserved mode.
-/
theorem references_of_word
    (word : Word)
    (options : Options)
    (wantDetail : Bool) :
    (∀ decoded opcode,
        Engine.decodeWord ⟨isa, options⟩ word wantDetail = .ok decoded →
          decoded.instruction.opcode = some opcode.id →
          opcode.isAccess →
          ∃ reference,
            .memory reference ∈ decoded.instruction.operands ∧
              Encodes opcode word.value reference ∧
              (referenceText reference).toList <:+:
                decoded.instruction.operandText.toList) ∧
      (word.size = 4 →
        hasAddressingMode word.value →
        bitField word.value 9 4 ∈ [2, 3, 6, 7] →
        Engine.decodeWord ⟨isa, options⟩ word wantDetail =
          .error (.invalidOperand word.address (modeFault word.value))) := by
  constructor
  · intro decoded opcode success named accesses
    exact exists_encodes_of_decodeWord success named accesses
  · intro four moded reserved
    exact decodeWord_of_reserved four moded reserved

/-- The word of `ldw .D1T1 *+a4[3], a5`. -/
def loadWord : Word :=
  ⟨[0x02, 0x90, 0x62, 0x64], 0x1000, 0x02906264, by simp, by decide⟩

/-- The same word with a reserved mode. -/
def reservedModeWord : Word :=
  ⟨[0x02, 0x90, 0x64, 0x64], 0x1000, 0x02906464, by simp, by decide⟩

set_option maxRecDepth 20000 in
/-- Three units of four bytes are twelve bytes, and the text has the three. -/
theorem references_of_word_ldw :
    (∃ decoded reference,
        Engine.decodeWord ⟨isa, {}⟩ loadWord true = .ok decoded ∧
          decoded.instruction.operandText = ".D1T1 *+a4[3], a5" ∧
          .memory reference ∈ decoded.instruction.operands ∧
          Encodes .ldw loadWord.value reference) ∧
      Engine.decodeWord ⟨isa, {}⟩ reservedModeWord true =
        .error
          (.invalidOperand 0x1000 (.reserved "addressing mode" 2)) := by
  obtain ⟨decoded, success, text, named⟩ :
      ∃ decoded,
        Engine.decodeWord ⟨isa, {}⟩ loadWord true = .ok decoded ∧
          decoded.instruction.operandText = ".D1T1 *+a4[3], a5" ∧
          decoded.instruction.opcode = some Opcode.ldw.id :=
    ⟨_, rfl, by decide, rfl⟩
  rcases (references_of_word loadWord {} true).1 decoded .ldw success named
      (by decide) with
    ⟨reference, member, encodes, -⟩
  constructor
  · exact ⟨decoded, reference, success, text, member, encodes⟩
  · exact (references_of_word reservedModeWord {} true).2 rfl (by decide)
      (by decide)

end MachineCode.C64x
