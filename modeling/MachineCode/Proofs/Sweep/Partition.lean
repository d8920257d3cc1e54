import Mathlib.Algebra.GroupWithZero.Nat
import MachineCode.Proofs.FirstWord
import MachineCode.Proofs.Sweep.Stops
import MachineCode.RiscV.InstructionSet

/-!
# A sweep that shows data partitions its input

Where bytes that do not decode are shown as data, every item of a sweep stands
for bytes of the input (`Engine.Covers`): an instruction for those it was
decoded from, data for those that were given up. Each step takes such an item
off the front of what is left (`Engine.covers_step`), and so the items of the
whole sweep are the input, cut into pieces (`Engine.sweep_partitions`).
-/

namespace MachineCode

namespace Engine

/-! ## One step -/

/-- Whether an item tells what stands at the front of an input. -/
structure Covers
    (engine : Engine)
    (input : List UInt8)
    (address : Address)
    (item : Instruction) :
    Prop where
  address_eq : item.address = address
  size_eq : item.size = item.bytes.length
  size_pos : 0 < item.size
  bytes_eq : item.bytes = input.take item.size
  /-- An instruction is what decodes there, and has at most eight bytes. -/
  code :
    item.opcode.isSome →
      item.size ≤ Word.maxSize ∧
        ∃ status, engine.decode input address = .ok ⟨item, status⟩
  /-- Data are the bytes given up where nothing decodes. -/
  data :
    item.opcode = none →
      item = .data address item.bytes engine.options.dataMnemonic ∧
        item.size = engine.giveUp input ∧
        (∃ error, engine.decode input address = .error error) ∧
        ∃ error, engine.decode item.bytes address = .error error

variable
  {engine : Engine}
  {input : List UInt8}
  {address : Address}

/-- Bytes at the front of an input that does not decode do not either. -/
theorem exists_error_of_take
    {error : DecodeError}
    (failed : engine.decode input address = .error error)
    (count : Nat) :
    ∃ error, engine.decode (input.take count) address = .error error := by
  cases outcome : engine.decode (input.take count) address with
  | error other => exact ⟨other, rfl⟩
  | ok decoded =>
      -- Such an outcome would stay when the rest of the input follows.
      cases enough : engine.needed? (input.take count) with
      | some needed =>
          rw [decode, decodeWith_of_needed? enough] at outcome
          cases outcome
      | none =>
          have same :
              engine.decode (input.take count ++ input.drop count) address =
                engine.decode (input.take count) address :=
            decodeWith_append_of_needed? enough _
          rw [List.take_append_drop, failed, outcome] at same
          cases same

/-- A step takes an item off the front of the input. -/
theorem covers_step
    (showsData : engine.options.skipData)
    (nonempty : input ≠ []) :
    ∃ item,
      engine.step input address = ⟨item.size, .ok item⟩ ∧
        engine.Covers input address item := by
  cases outcome : engine.decode input address with
  | ok decoded =>
      have heads := heads_of_decodeWith outcome
      refine ⟨decoded.instruction, step_of_decode outcome, ?_⟩
      exact
        { address_eq := heads.address_eq
          size_eq := heads.size_eq
          size_pos := heads.size_pos
          bytes_eq := heads.bytes_eq
          code := fun _ => ⟨heads.size_le, decoded.status, outcome⟩
          data := fun isData => by
            have isCode := heads.isCode
            rw [isData] at isCode
            cases isCode }
  | error error =>
      have length :
          (input.take (engine.giveUp input)).length = engine.giveUp input :=
        length_take_giveUp nonempty
      refine
        ⟨.data address (input.take (engine.giveUp input))
            engine.options.dataMnemonic, ?step, ?covers⟩
      case step =>
        rw [step_of_error nonempty outcome, if_pos showsData]
        exact congrArg (Step.mk · _) length.symm
      case covers =>
        exact
          { address_eq := rfl
            size_eq := rfl
            size_pos := Nat.lt_of_lt_of_eq (giveUp_pos ..) length.symm
            bytes_eq := congrArg input.take length.symm
            code := fun isCode => by cases isCode
            data := fun _ =>
              ⟨rfl, length, ⟨error, outcome⟩,
                exists_error_of_take outcome _⟩ }

/-! ## A whole sweep -/

/-- Whether items cut an input into pieces, each telling what stands there. -/
inductive Partition (engine : Engine) :
    (input : List UInt8) → (address : Address) → List Instruction → Prop where
  | nil {address : Address} : Partition engine [] address []
  | cons {item : Instruction} {rest : List UInt8} {address : Address}
      {later : List Instruction}
      (covers : engine.Covers (item.bytes ++ rest) address item)
      (partition :
        Partition engine rest (address.advance item.size) later) :
      Partition engine (item.bytes ++ rest) address (item :: later)

namespace Partition

variable {items : List Instruction}

theorem flatMap_bytes (partition : engine.Partition input address items) :
    items.flatMap Instruction.bytes = input := by
  induction partition with
  | nil => rfl
  | cons covers partition induction =>
      rw [List.flatMap_cons, induction]

/-- There are no more items than bytes. -/
theorem length_le (partition : engine.Partition input address items) :
    items.length ≤ input.length := by
  induction partition with
  | nil => exact Nat.le_refl 0
  | cons covers partition induction =>
      have size := covers.size_eq ▸ covers.size_pos
      rw [List.length_cons, List.length_append]
      omega

/-- An item stands where the sizes of the items before it lead to. -/
theorem covers
    {before after : List Instruction}
    {item : Instruction}
    (partition :
      engine.Partition input address (before ++ item :: after)) :
    engine.Covers ((item :: after).flatMap Instruction.bytes)
      (address.advance (before.map Instruction.size).sum) item := by
  induction before generalizing input address with
  | nil =>
      rw [List.nil_append] at partition
      rw [partition.flatMap_bytes, List.map_nil, List.sum_nil,
        Address.advance_zero]
      cases partition with
      | cons covers _ => exact covers
  | cons first before induction =>
      cases partition with
      | cons _ later =>
          rw [List.map_cons, List.sum_cons, ← Address.advance_advance]
          exact induction later

end Partition

/-- A sweep that shows data partitions its input. -/
theorem exists_partition
    (showsData : engine.options.skipData)
    (input : List UInt8)
    (address : Address) :
    ∃ items : List Instruction,
      engine.sweep input address = items.map .ok ∧
        engine.Partition input address items := by
  induction input, address using sweep.induct engine with
  | case1 address =>
      exact ⟨[], by rw [sweep, dif_pos rfl]; rfl, .nil⟩
  | case2 input address nonempty step induction =>
      rcases covers_step showsData nonempty with ⟨item, taken, covers⟩
      have isStep : step = ⟨item.size, .ok item⟩ := taken
      rw [isStep] at induction
      rcases induction with ⟨later, swept, partition⟩
      refine ⟨item :: later, ?_, ?_⟩
      · rw [sweep, dif_neg nonempty, taken, List.map_cons, ← swept]
      · rw [← List.take_append_drop item.size input, ← covers.bytes_eq]
        refine .cons ?_ partition
        rw [covers.bytes_eq, List.take_append_drop]
        exact covers

/--
A sweep that shows data ends after at most as many items as there are bytes.
Its items are the input, cut into pieces, each at the address that the sizes
of the items before it lead to.
-/
theorem sweep_partitions
    {engine : Engine}
    (showsData : engine.options.skipData)
    (input : List UInt8)
    (start : Address) :
    ∃ items : List Instruction,
      engine.sweep input start = items.map .ok ∧
        items.length ≤ input.length ∧
        items.flatMap Instruction.bytes = input ∧
        ∀ before item after,
          items = before ++ item :: after →
            engine.Covers ((item :: after).flatMap Instruction.bytes)
              (start.advance (before.map Instruction.size).sum) item := by
  rcases exists_partition showsData input start with
    ⟨items, swept, partition⟩
  refine ⟨items, swept, partition.length_le, partition.flatMap_bytes, ?_⟩
  rintro before item after rfl
  exact partition.covers

/-- An engine for RV64 that shows data. -/
def showingEngine : Engine :=
  ⟨RiscV.isa .rv64, { skipData := true }⟩

/-- An illegal parcel, `c.addi a0, 1`, and the first byte of a word. -/
def mixedBytes : List UInt8 :=
  [0x00, 0x00, 0x05, 0x05, 0x13]

/-- Data, an instruction and data, across the end of the address space. -/
theorem sweep_partitions_mixedBytes :
    showingEngine.options.skipData ∧
      ∃ items : List Instruction,
        showingEngine.sweep mixedBytes 0xfffffffffffffffe =
            items.map .ok ∧
          items.map Instruction.address = [0xfffffffffffffffe, 0, 2] ∧
          items.map Instruction.isData = [true, false, true] ∧
          items.flatMap Instruction.bytes = mixedBytes ∧
          ∀ before item after,
            items = before ++ item :: after →
              showingEngine.Covers
                ((item :: after).flatMap Instruction.bytes)
                (Address.advance 0xfffffffffffffffe
                  (before.map Instruction.size).sum)
                item := by
  obtain ⟨first, second, third, swept, addresses, data⟩ :
      ∃ first second third : Instruction,
        showingEngine.sweepAtMost 4 mixedBytes 0xfffffffffffffffe =
            [first, second, third].map .ok ∧
          [first, second, third].map Instruction.address =
            [0xfffffffffffffffe, 0, 2] ∧
          [first, second, third].map Instruction.isData =
            [true, false, true] :=
    ⟨_, _, _, rfl, rfl, rfl⟩
  have ended :
      (showingEngine.sweepAtMost 4 mixedBytes 0xfffffffffffffffe).length <
        4 := by
    rw [swept]
    exact Nat.lt_succ_self 3
  rcases
      @sweep_partitions showingEngine rfl mixedBytes 0xfffffffffffffffe with
    ⟨items, isSweep, -, partitions⟩
  have same : items = [first, second, third] := by
    rw [sweep_eq_sweepAtMost ended, swept] at isSweep
    exact ((List.map_inj_right fun _ _ => Except.ok.inj).mp isSweep).symm
  subst same
  exact ⟨rfl, _, isSweep, addresses, data, partitions⟩

end Engine

end MachineCode
