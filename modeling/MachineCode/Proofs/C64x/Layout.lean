import MachineCode.Proofs.C64x.Flow
import MachineCode.Proofs.PreferredTouch
import MachineCode.Proofs.Reading

/-!
# What C64x formats read

A format that reads a word succeeds with operands that are told by the fields
of the word (`exists_of_read…`). Sides and numbers of registers are always in
range; only a predicate, a pair and an addressing mode can be refused.
-/

namespace MachineCode.C64x

/-! ## Registers -/

/-- The general register that has a number on an encoded side. -/
def generalOf (side number : Nat) : Register :=
  ⟨.c64x, .general, 32 * side + number, 32⟩

/-- The pair of registers whose lower one has a number on a side. -/
def pairOf (side number : Nat) : Operand :=
  .registers
    { registers := [generalOf side (number + 1), generalOf side number]
      style := .pair }

/-- The side of an operand that may come over the cross path. -/
def sourceSide (side : Nat) (crossed : Bool) : Nat :=
  side ^^^ crossed.toNat

theorem sourceSide_lt
    {side : Nat}
    (known : side < 2)
    (crossed : Bool) :
    sourceSide side crossed < 2 :=
  Nat.xor_lt_two_pow (n := 1) known crossed.toNat_lt

@[simp]
theorem sourceSide_false (side : Nat) : sourceSide side false = side :=
  Nat.xor_zero side

section Registers

variable {side number : Nat}

theorem get?_files
    (known : side < 2)
    (small : number < 32) :
    files.get? side number = some (generalOf side number) := by
  have each : side = 0 ∨ side = 1 := by omega
  rcases each with rfl | rfl
  · exact RegisterFile.get?_sequential small
  · exact RegisterFile.get?_sequential small

theorem general_eq
    (known : side < 2)
    (small : number < 32)
    (crossed : Bool) :
    general side crossed number =
      .ok (generalOf (sourceSide side crossed) number) := by
  have found :
      files.getCrossed? side crossed number =
        some (generalOf (sourceSide side crossed) number) :=
    get?_files (sourceSide_lt known crossed) small
  rw [general, found]

/-- A pair that is read starts at an even number. -/
theorem eq_of_generalPair
    (known : side < 2)
    (small : number < 32)
    {pair : Operand}
    (read : generalPair side number = .ok pair) :
    number % 2 = 0 ∧ pair = pairOf side number := by
  have each : side = 0 ∨ side = 1 := by omega
  have found (file : RegisterFile) (isFile : files.file? side = some file) :
      ∀ index < 32, file.find index = .ok (generalOf side index) := by
    intro index inside
    have member := get?_files known inside
    rw [Banks.get?, isFile, Option.bind_some] at member
    rw [RegisterFile.find, member]
  cases isFile : files.file? side with
  | none => rcases each with rfl | rfl <;> cases isFile
  | some file =>
      rw [generalPair, isFile] at read
      simp only [RegisterFile.pair, found file isFile number small] at read
      split at read
      · next list halves =>
        cases read
        split at halves
        · cases halves
        next even =>
        rw [found file isFile (number + 1) (by omega)] at halves
        cases halves
        exact ⟨not_not.mp even, rfl⟩
      · cases read

end Registers

/-! ## Fields -/

/-- The fields that most arithmetic instructions share. -/
def Fields.of (value : Nat) : Fields where
  destination := bitField value 23 5
  second := bitField value 18 5
  first := bitField value 13 5
  side := bitField value 1 1

/-- The general register of the unit's side that a field names. -/
def nearRegister (value start : Nat) : Register :=
  generalOf (bitField value 1 1) (bitField value start 5)

/-- The second source, which comes over the cross path if a bit says so. -/
def secondSource (value : Nat) : Register :=
  generalOf (sourceSide (bitField value 1 1) (value.testBit 12))
    (bitField value 18 5)

/-- The slot of a unit that has a cross path. -/
def crossSlot (unit : FunctionalUnit) (value : Nat) : Slot where
  unit
  side := bitField value 1 1
  crossed := value.testBit 12

/-- The slot of a unit without a path to the other side. -/
def nearSlot (unit : FunctionalUnit) (value : Nat) : Slot where
  unit
  side := bitField value 1 1

/-- The facts of a word in a slot, under a predicate. -/
def Slot.factsUnder
    (slot : Slot)
    (word : Word)
    (predicate : Option Predicate) :
    C64xSpecifics where
  predicate
  unit := slot.unit
  side := slot.writtenSide
  dataPath := slot.dataSide.map (· + 1)
  crossPath := slot.crossed
  parallel := word.value.testBit 0

/-- What the five bits of a first source stand for. -/
def FirstSource.operandOf (source : FirstSource) (value : Nat) : Operand :=
  match source with
  | .register => .register (nearRegister value 13)
  | .signed => .signedField (bitField value 13 5) 5
  | .unsigned => .unsigned (bitField value 13 5) 5

/-- A part that is read is handed to the rest of a reading. -/
theorem ok_bind
    {α β : Type}
    (part : α)
    (rest : α → Read β) :
    (Except.ok part >>= rest) = rest part :=
  rfl

/-- The pair on the unit's side whose lower register a field names. -/
def nearPair (value start : Nat) : Operand :=
  pairOf (bitField value 1 1) (bitField value start 5)

/-- The reference that a mode makes of the fields of a word. -/
def AddressingMode.referenceOf
    (mode : AddressingMode)
    (value size scale : Nat) :
    MemoryReference :=
  let side := bitField value 7 1
  let offset := bitField value 13 5
  let base := some (generalOf side (bitField value 18 5))
  if mode.registerOffset then
    { base
      index := some (generalOf side offset)
      scale
      size
      mode := mode.update
      subtract := mode.subtract }
  else
    let distance : Int := offset * scale
    { base
      displacement := if mode.subtract then -distance else distance
      scale
      size
      mode := mode.update
      subtract := mode.subtract }

/-- The reference with a long constant offset. -/
def farReference (value size : Nat) : MemoryReference where
  base := some (generalOf 1 (14 + bitField value 7 1))
  displacement := bitField value 8 15 * size
  scale := size
  size

/-- The slot of an access with an addressing mode. -/
def accessSlot (value : Nat) : Slot where
  unit := .d
  side := bitField value 7 1
  dataSide := some (bitField value 1 1)

/-- The slot of an access with a long offset. -/
def farSlot (value : Nat) : Slot where
  unit := .d
  side := 1
  dataSide := some (bitField value 1 1)

section Parts

variable {value start : Nat}

theorem eq_of_nearPair
    {pair : Operand}
    (read :
      generalPair (bitField value 1 1) (bitField value start 5) =
        .ok pair) :
    bitField value start 5 % 2 = 0 ∧ pair = nearPair value start :=
  eq_of_generalPair (bitField_lt ..) (bitField_lt ..) read

variable (value start)

theorem general_near :
    general (bitField value 1 1) false (bitField value start 5) =
      .ok (nearRegister value start) := by
  rw [general_eq (bitField_lt ..) (bitField_lt ..), sourceSide_false]
  rfl

theorem general_second :
    general (bitField value 1 1) (value.testBit 12) (bitField value 18 5) =
      .ok (secondSource value) :=
  general_eq (bitField_lt ..) (bitField_lt ..) _

theorem FirstSource.operand_eq (source : FirstSource) :
    source.operand (bitField value 1 1) (bitField value 13 5) =
      .ok (source.operandOf value) := by
  cases source with
  | signed | unsigned => rfl
  | register =>
      rw [operand, general_near]
      rfl

end Parts

section Formats

variable
  {word : Word}
  {result : Reading}
  (four : word.size = 4)
include four

theorem Fields.read_eq : Fields.read word = .ok (.of word.value) := by
  simp (disch := decide) only [Fields.read, field_eq_ok_of_size four,
    ok_bind]
  rfl

/-- A reading of operands that are known has facts of the slot. -/
theorem Slot.exists_of_facts
    {slot : Slot}
    {rest : C64xSpecifics → Read Reading}
    (read : (slot.facts word >>= rest) = .ok result) :
    ∃ under, rest (slot.factsUnder word under) = .ok result := by
  rcases exists_of_bind read with ⟨facts, known, read⟩
  rcases exists_of_bind known with ⟨under, -, known⟩
  rw [flag_eq_ok_of_size four (by decide)] at known
  cases known
  exact ⟨under, read⟩

/-! ## Arithmetic -/

theorem exists_of_readBinary
    {unit : FunctionalUnit}
    {source : FirstSource}
    (read : readBinary unit source word = .ok result) :
    ∃ under,
      result =
        reading ((crossSlot unit word.value).factsUnder word under)
          [source.operandOf word.value,
            .register (secondSource word.value),
            .register (nearRegister word.value 23)] := by
  simp (disch := decide) only [readBinary, Fields.read_eq four,
    flag_eq_ok_of_size four, ok_bind, Fields.of, FirstSource.operand_eq,
    general_second, general_near] at read
  rcases Slot.exists_of_facts four read with ⟨under, same⟩
  cases same
  exact ⟨under, rfl⟩

/-- A pair of sums, from registers of which one may be far. -/
theorem exists_of_readLong_register
    (read : readLong false word = .ok result) :
    ∃ under,
      bitField word.value 23 5 % 2 = 0 ∧
        result =
          reading ((crossSlot .l word.value).factsUnder word under)
            [.register (nearRegister word.value 13),
              .register (secondSource word.value),
              nearPair word.value 23] := by
  simp (disch := decide) only [readLong, Fields.read_eq four,
    flag_eq_ok_of_size four, ok_bind, Fields.of, general_second,
    general_near, Bool.false_and, Bool.false_eq_true, if_false,
    Functor.map, Except.map] at read
  rcases Slot.exists_of_facts four read with ⟨under, read⟩
  rcases exists_of_bind read with ⟨pair, isPair, same⟩
  rcases eq_of_nearPair isPair with ⟨even, rfl⟩
  cases same
  exact ⟨under, even, rfl⟩

/-- Pairs are on the unit's own side. -/
theorem exists_of_readLong_pair
    (read : readLong true word = .ok result) :
    ∃ under,
      bitField word.value 18 5 % 2 = 0 ∧
        bitField word.value 23 5 % 2 = 0 ∧
        result =
          reading ((nearSlot .l word.value).factsUnder word under)
            [.register (nearRegister word.value 13),
              nearPair word.value 18,
              nearPair word.value 23] := by
  simp (disch := decide) only [readLong, Fields.read_eq four,
    flag_eq_ok_of_size four, ok_bind, Fields.of, general_near,
    Bool.true_and, if_true] at read
  split at read
  · cases read
  next near =>
  rcases Slot.exists_of_facts four read with ⟨under, read⟩
  rcases exists_of_bind read with ⟨source, isPair, read⟩
  rcases eq_of_nearPair isPair with ⟨even, rfl⟩
  rcases exists_of_bind read with ⟨pair, isPair, same⟩
  rcases eq_of_nearPair isPair with ⟨evenToo, rfl⟩
  rw [Bool.not_eq_true] at near
  rw [near] at same
  cases same
  exact ⟨under, even, evenToo, rfl⟩

theorem exists_of_readUnary
    (read : readUnary word = .ok result) :
    ∃ under,
      result =
        reading ((crossSlot .l word.value).factsUnder word under)
          [.register (secondSource word.value),
            .register (nearRegister word.value 23)] := by
  simp (disch := decide) only [readUnary, Fields.read_eq four,
    flag_eq_ok_of_size four, ok_bind, Fields.of, general_second,
    general_near] at read
  rcases Slot.exists_of_facts four read with ⟨under, same⟩
  cases same
  exact ⟨under, rfl⟩

theorem exists_of_readShift
    {amount : FirstSource}
    (read : readShift amount word = .ok result) :
    ∃ under,
      result =
        reading ((crossSlot .s word.value).factsUnder word under)
          [.register (secondSource word.value),
            amount.operandOf word.value,
            .register (nearRegister word.value 23)] := by
  simp (disch := decide) only [readShift, Fields.read_eq four,
    flag_eq_ok_of_size four, ok_bind, Fields.of, FirstSource.operand_eq,
    general_second, general_near] at read
  rcases Slot.exists_of_facts four read with ⟨under, same⟩
  cases same
  exact ⟨under, rfl⟩

theorem exists_of_readAddress
    {source : FirstSource}
    (read : readAddress source word = .ok result) :
    ∃ under,
      result =
        reading ((nearSlot .d word.value).factsUnder word under)
          [.register (nearRegister word.value 18),
            source.operandOf word.value,
            .register (nearRegister word.value 23)] := by
  simp only [readAddress, Fields.read_eq four, ok_bind, Fields.of,
    FirstSource.operand_eq, general_near] at read
  rcases Slot.exists_of_facts four read with ⟨under, same⟩
  cases same
  exact ⟨under, rfl⟩

/-! ## Constants and control -/

theorem exists_of_readConstant
    {constant : Nat → Operand}
    (read : readConstant constant word = .ok result) :
    ∃ under,
      result =
        reading ((nearSlot .s word.value).factsUnder word under)
          [constant (bitField word.value 7 16),
            .register (nearRegister word.value 23)] := by
  simp (disch := decide) only [readConstant, field_eq_ok_of_size four,
    ok_bind, general_near] at read
  rcases Slot.exists_of_facts four read with ⟨under, same⟩
  cases same
  exact ⟨under, rfl⟩

theorem exists_of_readBranch
    (read : readBranch word = .ok result) :
    ∃ under,
      result =
        reading ((nearSlot .s word.value).factsUnder word under)
          [.relativeField (bitField word.value 7 21) 21 4 word.address
            fetchPacketMask] := by
  simp (disch := decide) only [readBranch, field_eq_ok_of_size four,
    ok_bind] at read
  rcases Slot.exists_of_facts four read with ⟨under, same⟩
  cases same
  exact ⟨under, rfl⟩

theorem exists_of_readBranchRegister
    (read : readBranchRegister word = .ok result) :
    ∃ under,
      result =
        reading ((crossSlot .s word.value).factsUnder word under)
          [.register (secondSource word.value)] := by
  simp (disch := decide) only [readBranchRegister, field_eq_ok_of_size four,
    flag_eq_ok_of_size four, ok_bind, general_second] at read
  rcases Slot.exists_of_facts four read with ⟨under, same⟩
  cases same
  exact ⟨under, rfl⟩

theorem exists_of_readBranchReturn
    (read : readBranchReturn word = .ok result) :
    ∃ under pointer,
      controlFile.find (bitField word.value 18 5) = .ok pointer ∧
        result =
          reading ((nearSlot .s word.value).factsUnder word under)
            [.register pointer] := by
  simp (disch := decide) only [readBranchReturn, field_eq_ok_of_size four,
    ok_bind] at read
  rcases Slot.exists_of_facts four read with ⟨under, read⟩
  rcases exists_of_bind read with ⟨pointer, found, same⟩
  cases same
  exact ⟨under, pointer, found, rfl⟩

theorem exists_of_readMoveToControl
    (read : readMoveToControl word = .ok result) :
    ∃ under control,
      controlFile.find (bitField word.value 23 5) = .ok control ∧
        result =
          reading ((crossSlot .s word.value).factsUnder word under)
            [.register (secondSource word.value), .register control] := by
  simp (disch := decide) only [readMoveToControl, field_eq_ok_of_size four,
    flag_eq_ok_of_size four, ok_bind, general_second] at read
  rcases Slot.exists_of_facts four read with ⟨under, read⟩
  rcases exists_of_bind read with ⟨control, found, same⟩
  cases same
  exact ⟨under, control, found, rfl⟩

theorem exists_of_readMoveFromControl
    (read : readMoveFromControl word = .ok result) :
    ∃ under control,
      controlFile.find (bitField word.value 18 5) = .ok control ∧
        result =
          reading ((nearSlot .s word.value).factsUnder word under)
            [.register control,
              .register (nearRegister word.value 23)] := by
  simp (disch := decide) only [readMoveFromControl,
    field_eq_ok_of_size four, ok_bind, general_near] at read
  rcases Slot.exists_of_facts four read with ⟨under, read⟩
  rcases exists_of_bind read with ⟨control, found, same⟩
  cases same
  exact ⟨under, control, found, rfl⟩

/-! ## Memory -/

/-- What is read of a reference, if there is such a mode. -/
theorem exists_of_readReference
    {size scale : Nat}
    {reference : Operand}
    (read :
      readReference word (bitField word.value 7 1) size scale =
        .ok reference) :
    ∃ mode,
      addressingModes[bitField word.value 9 4]?.join = some mode ∧
        reference = .memory (mode.referenceOf word.value size scale) := by
  simp (disch := decide) only [readReference, field_eq_ok_of_size four,
    ok_bind] at read
  rcases exists_of_bind read with ⟨mode, selected, read⟩
  rw [selectMode] at selected
  split at selected
  · next found =>
    cases selected
    simp (disch := exact bitField_lt ..) only [general_eq, sourceSide_false,
      AddressingMode.reference, ok_bind] at read
    refine ⟨mode, found, ?_⟩
    rw [AddressingMode.referenceOf]
    split at read <;> cases read <;> simp_all
  · cases selected

/-- An access moves one register, or an even pair if it has eight bytes. -/
theorem exists_of_readAccess
    {direction : Direction}
    {size : Nat}
    (read : readAccess direction size word = .ok result) :
    ∃ under mode,
      addressingModes[bitField word.value 9 4]?.join = some mode ∧
        (size = 8 → bitField word.value 23 5 % 2 = 0) ∧
        result =
          reading ((accessSlot word.value).factsUnder word under)
            (direction.operands
              (.memory (mode.referenceOf word.value size size))
              (if size = 8 then nearPair word.value 23
                else .register (nearRegister word.value 23))) := by
  simp (disch := decide) only [readAccess, field_eq_ok_of_size four,
    ok_bind, general_near, Functor.map, Except.map] at read
  rcases Slot.exists_of_facts four read with ⟨under, read⟩
  rcases exists_of_bind read with ⟨reference, isReference, read⟩
  rcases exists_of_readReference four isReference with ⟨mode, found, rfl⟩
  split at read
  · next double =>
    rcases exists_of_bind read with ⟨pair, isPair, same⟩
    rcases eq_of_nearPair isPair with ⟨even, rfl⟩
    cases same
    exact ⟨under, mode, found, fun _ => even, by rw [if_pos double]; rfl⟩
  · next single =>
    cases read
    exact ⟨under, mode, found, fun double => absurd double single,
      by rw [if_neg single]; rfl⟩

theorem exists_of_readUnalignedDouble
    {direction : Direction}
    (read : readUnalignedDouble direction word = .ok result) :
    ∃ under mode,
      addressingModes[bitField word.value 9 4]?.join = some mode ∧
        result =
          reading ((accessSlot word.value).factsUnder word under)
            (direction.operands
              (.memory
                (mode.referenceOf word.value 8
                  (if word.value.testBit 23 then 8 else 1)))
              (pairOf (bitField word.value 1 1)
                (2 * bitField word.value 24 4))) := by
  simp (disch := decide) only [readUnalignedDouble,
    field_eq_ok_of_size four, flag_eq_ok_of_size four, ok_bind] at read
  rcases Slot.exists_of_facts four read with ⟨under, read⟩
  rcases exists_of_bind read with ⟨reference, isReference, read⟩
  rcases exists_of_readReference four isReference with ⟨mode, found, rfl⟩
  rcases exists_of_bind read with ⟨pair, isPair, same⟩
  have small := bitField_lt word.value 24 4
  rcases eq_of_generalPair (bitField_lt ..) (by omega) isPair with ⟨-, rfl⟩
  cases same
  exact ⟨under, mode, found, rfl⟩

theorem exists_of_readFar
    {direction : Direction}
    {size : Nat}
    (read : readFar direction size word = .ok result) :
    ∃ under,
      result =
        reading ((farSlot word.value).factsUnder word under)
          (direction.operands (.memory (farReference word.value size))
            (.register (nearRegister word.value 23))) := by
  have small := bitField_lt word.value 7 1
  have isBase :
      general 1 false (14 + bitField word.value 7 1) =
        .ok (generalOf 1 (14 + bitField word.value 7 1)) := by
    rw [general_eq (by decide) (by omega), sourceSide_false]
  simp (disch := decide) only [readFar, field_eq_ok_of_size four, ok_bind,
    general_near, isBase] at read
  rcases Slot.exists_of_facts four read with ⟨under, same⟩
  cases same
  exact ⟨under, rfl⟩

end Formats

/-! ## Decoding -/

/-- A test of opcodes and formats, as a test of their numbers. -/
def fitsNumbers
    (fit : Opcode → Format → Bool)
    (opcode format : Nat) :
    Bool :=
  match Opcode.ofId? opcode, Format.ofId? format with
  | some opcode, some format => fit opcode format
  | _, _ => false

/--
A decoded word has been read in one of the formats, and passes the test of
opcodes and formats that all entries of the table pass.
-/
theorem exists_read_of_decodeRaw
    {fit : Opcode → Format → Bool}
    (fits : ∀ entry ∈ table.entries, entry.fits (fitsNumbers fit))
    {options : Options}
    {word : Word}
    {raw : RawInstruction}
    (decoded : Engine.decodeRaw ⟨isa, options⟩ word = .ok raw) :
    word.size = 4 ∧
      ∃ opcode format result,
        Opcode.ofId? raw.opcode = some opcode ∧
          fit opcode format ∧
          format.read word = .ok result ∧
          raw.operands = result.operands ∧
          raw.specifics = result.specifics := by
  rcases Engine.run_of_decodeRaw (fun _ => rfl) decoded with ⟨four, ran⟩
  rcases Isa.exists_fit_of_run fits ran with
    ⟨number, result, passed, read, operands, specifics⟩
  rw [fitsNumbers] at passed
  split at passed
  · next opcode format named known =>
    exact ⟨four, opcode, format, result, named, passed,
      by simpa [isa, known] using read, operands, specifics⟩
  · cases passed

end MachineCode.C64x
