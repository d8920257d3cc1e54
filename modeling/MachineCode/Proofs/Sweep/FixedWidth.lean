import MachineCode.Arm64.InstructionSet
import MachineCode.C64x.InstructionSet
import MachineCode.Proofs.FirstWord
import MachineCode.Proofs.Sweep.Stops

/-!
# Sweeps over words of one width

Where every word has as many bytes as are given up when nothing decodes, a
step takes these bytes off the front, or all that is left if it is less. What
it makes of them does not depend on what follows (`Engine.step_take`), so that
a sweep is a list of steps, each over a piece of the input
(`Engine.sweep_eq_map_range`), and an input that is cut between two words may
be swept in two parts (`Engine.sweep_take_append_sweep_drop`). Arm64 and C64x
are such instruction sets (`Engine.sweep_fixedWidth`).
-/

namespace MachineCode

/-- Whether words, and what is given up, have a number of bytes. -/
structure Isa.StepsBy (isa : Isa) (width : Nat) : Prop where
  positive : 0 < width
  widthRule_eq : isa.widthRule = .fixed width
  skipSize_eq : ∀ features, isa.skipSize features = width

theorem Arm64.stepsBy : isa.StepsBy 4 where
  positive := by decide
  widthRule_eq := rfl
  skipSize_eq _ := rfl

theorem C64x.stepsBy : isa.StepsBy 4 where
  positive := by decide
  widthRule_eq := rfl
  skipSize_eq _ := rfl

namespace Engine

variable
  {engine : Engine}
  {width : Nat}
  (steps : engine.isa.StepsBy width)
  {input : List UInt8}

/-! ## One step -/

/-- What is decoded has the size that its leading bytes select. -/
theorem size?_of_decodeWith
    {address : Address}
    {wantDetail : Bool}
    {decoded : Decoded}
    (success :
      engine.decodeWith input address wantDetail = .ok decoded) :
    engine.isa.widthRule.size? input = some decoded.instruction.size := by
  rcases exists_word_of_decodeWith success with ⟨word, read, success⟩
  rcases exists_describe_of_decodeWord success with ⟨raw, info, -, -, rfl⟩
  exact WidthRule.size?_of_readWord read

include steps

theorem needed?_of_stepsBy (enough : width ≤ input.length) :
    engine.needed? input = none := by
  rw [needed?, steps.widthRule_eq, WidthRule.needed?_eq_none_iff]
  refine ⟨enough, ?_⟩
  intro size selected
  cases selected
  exact enough

/-- The bytes of one word are given up, or all that are left. -/
theorem giveUp_of_stepsBy (nonempty : input ≠ []) :
    engine.giveUp input = min width input.length := by
  have positive := steps.positive
  have some := List.length_pos_iff.mpr nonempty
  rw [giveUp, skipSize, steps.skipSize_eq]
  omega

/-- A step takes one word, or all that is left. -/
theorem step_consumed_of_stepsBy
    (nonempty : input ≠ [])
    (address : Address) :
    (engine.step input address).consumed = min width input.length := by
  cases outcome : engine.decode input address with
  | ok decoded =>
      have selected := size?_of_decodeWith outcome
      rw [steps.widthRule_eq] at selected
      have size : width = decoded.instruction.size := Option.some.inj selected
      have heads := heads_of_decodeWith outcome
      have enough : width ≤ input.length := by
        rw [size, heads.size_eq, heads.bytes_eq]
        exact List.length_take_le' ..
      rw [step_of_decode outcome]
      exact size.symm.trans (Nat.min_eq_left enough).symm
  | error error =>
      rw [step_of_error nonempty outcome]
      exact giveUp_of_stepsBy steps nonempty

/-- What follows the first word makes no difference to a step. -/
theorem step_take (input : List UInt8) (address : Address) :
    engine.step (input.take width) address = engine.step input address := by
  rcases Nat.lt_or_ge width input.length with longer | short
  · have length : (input.take width).length = width :=
      List.length_take_of_le (Nat.le_of_lt longer)
    have nonempty : input ≠ [] :=
      List.length_pos_iff.mp (Nat.zero_lt_of_lt longer)
    have frontNonempty : input.take width ≠ [] := by
      rw [← List.length_pos_iff, length]
      exact steps.positive
    have same :
        engine.decode (input.take width) address =
          engine.decode input address := by
      conv => rhs; rw [← List.take_append_drop width input]
      exact
        (decodeWith_append_of_needed?
          (needed?_of_stepsBy steps (Nat.le_of_eq length.symm)) _).symm
    have givenUp :
        engine.giveUp (input.take width) = engine.giveUp input := by
      rw [giveUp_of_stepsBy steps nonempty,
        giveUp_of_stepsBy steps frontNonempty, length, Nat.min_self,
        Nat.min_eq_left (Nat.le_of_lt longer)]
    cases outcome : engine.decode input address with
    | ok decoded =>
        rw [step_of_decode outcome, step_of_decode (same.trans outcome)]
    | error error =>
        have bytes :
            (input.take width).take (engine.giveUp input) =
              input.take (engine.giveUp input) := by
          rw [giveUp_of_stepsBy steps nonempty, List.take_take,
            Nat.min_eq_left (Nat.min_le_left ..)]
        rw [step_of_error nonempty outcome,
          step_of_error frontNonempty (same.trans outcome), givenUp, bytes]
  · rw [List.take_of_length_le short]

/-! ## A whole sweep -/

/-- A sweep is a step over the first word and a sweep of what follows it. -/
theorem sweep_of_ne_nil
    (nonempty : input ≠ [])
    (start : Address) :
    engine.sweep input start =
      (engine.step (input.take width) start).item ::
        engine.sweep (input.drop width) (start.advance width) := by
  rw [sweep, dif_neg nonempty, step_take steps]
  dsimp only
  rw [step_consumed_of_stepsBy steps nonempty]
  rcases Nat.le_total width input.length with enough | short
  · rw [Nat.min_eq_left enough]
  · -- nothing is left, and the address does not matter
    rw [Nat.min_eq_right short, List.drop_length,
      List.drop_eq_nil_of_le short, sweep, sweep, dif_pos rfl, dif_pos rfl]

/-- An item of a sweep is that of a step over one word alone. -/
theorem getElem?_sweep
    (place : Nat)
    (input : List UInt8)
    (start : Address) :
    (engine.sweep input start)[place]? =
      if width * place < input.length then
        some
          (engine.step ((input.drop (width * place)).take width)
            (start.advance (width * place))).item
      else
        none := by
  induction place generalizing input start with
  | zero =>
      by_cases isEmpty : input = []
      · subst isEmpty
        rw [sweep, dif_pos rfl]
        rfl
      · rw [sweep_of_ne_nil steps isEmpty, List.getElem?_cons_zero,
          Nat.mul_zero, if_pos (List.length_pos_iff.mpr isEmpty),
          List.drop_zero, Address.advance_zero]
  | succ place induction =>
      by_cases isEmpty : input = []
      · subst isEmpty
        rw [sweep, dif_pos rfl]
        rfl
      · rw [sweep_of_ne_nil steps isEmpty, List.getElem?_cons_succ,
          induction, List.drop_drop, List.length_drop,
          Address.advance_advance, Nat.mul_succ, Nat.add_comm width]
        have inside :
            width * place < input.length - width ↔
              width * place + width < input.length :=
          Nat.lt_sub_iff_add_lt
        simp only [inside]

/-- A sweep makes a step for each word that begins inside the input. -/
theorem sweep_eq_map_range
    (input : List UInt8)
    (start : Address) :
    engine.sweep input start =
      (List.range ((input.length + (width - 1)) / width)).map fun place =>
        (engine.step ((input.drop (width * place)).take width)
          (start.advance (width * place))).item := by
  refine List.ext_getElem? fun place => ?_
  have inside :
      place < (input.length + (width - 1)) / width ↔
        width * place < input.length := by
    rw [Nat.lt_div_iff_mul_lt steps.positive, Nat.add_sub_cancel,
      Nat.mul_comm]
  rw [getElem?_sweep steps, List.getElem?_map]
  by_cases begins : width * place < input.length
  · rw [if_pos begins, List.getElem?_range (inside.mpr begins),
      Option.map_some]
  · rw [if_neg begins, List.getElem?_eq_none, Option.map_none]
    rw [List.length_range]
    exact Nat.not_lt.mp (mt inside.mp begins)

/-- An input may be cut between two words and swept in two parts. -/
theorem sweep_take_append_sweep_drop
    (count : Nat)
    (input : List UInt8)
    (start : Address) :
    engine.sweep (input.take (width * count)) start ++
        engine.sweep (input.drop (width * count))
          (start.advance (width * count)) =
      engine.sweep input start := by
  induction count generalizing input start with
  | zero =>
      rw [Nat.mul_zero, List.take_zero, List.drop_zero, Address.advance_zero,
        sweep, dif_pos rfl, List.nil_append]
  | succ count induction =>
      by_cases isEmpty : input = []
      · subst isEmpty
        rw [List.take_nil, List.drop_nil, sweep, dif_pos rfl, sweep,
          dif_pos rfl, List.append_nil]
      · have positive := steps.positive
        have frontNonempty : input.take (width * (count + 1)) ≠ [] := by
          rw [Ne, List.take_eq_nil_iff, Nat.mul_eq_zero]
          rintro ((isZero | isZero) | isNil)
          · exact Nat.ne_of_gt positive isZero
          · cases isZero
          · exact isEmpty isNil
        have whole : width ≤ width * (count + 1) :=
          Nat.le_mul_of_pos_right width (Nat.succ_pos count)
        have rest : width * (count + 1) - width = width * count := by
          rw [Nat.mul_succ, Nat.add_sub_cancel]
        rw [sweep_of_ne_nil steps frontNonempty,
          sweep_of_ne_nil steps isEmpty, List.take_take,
          Nat.min_eq_left whole, List.drop_take, rest, List.cons_append]
        congr 1
        rw [← induction (input.drop width), List.drop_drop,
          Address.advance_advance, Nat.mul_succ, Nat.add_comm width]

omit steps

/--
A sweep of Arm64 or C64x code is a list of steps, one for each word that
begins inside the input and each over the bytes of that word alone. To sweep
the words at the front and then the rest gives the same list.
-/
theorem sweep_fixedWidth
    (family : engine.isa = Arm64.isa ∨ engine.isa = C64x.isa)
    (input : List UInt8)
    (start : Address) :
    (engine.sweep input start).length = (input.length + 3) / 4 ∧
      (∀ place < (engine.sweep input start).length,
        (engine.sweep input start)[place]? =
          some
            (engine.step ((input.drop (4 * place)).take 4)
              (start.advance (4 * place))).item) ∧
      ∀ count,
        engine.sweep (input.take (4 * count)) start ++
            engine.sweep (input.drop (4 * count))
              (start.advance (4 * count)) =
          engine.sweep input start := by
  have steps : engine.isa.StepsBy 4 := by
    rcases family with isArm64 | isC64x
    · exact isArm64 ▸ Arm64.stepsBy
    · exact isC64x ▸ C64x.stepsBy
  have swept := sweep_eq_map_range steps input start
  have length :
      (engine.sweep input start).length = (input.length + 3) / 4 := by
    rw [swept, List.length_map, List.length_range]
  refine ⟨length, ?items, ?parts⟩
  case items =>
    intro place inside
    rw [length] at inside
    rw [swept, List.getElem?_map, List.getElem?_range inside,
      Option.map_some]
  case parts =>
    intro count
    exact sweep_take_append_sweep_drop steps count input start

/-- An Arm64 engine that shows data. -/
def showingWords : Engine :=
  ⟨Arm64.isa, { skipData := true }⟩

/-- The word of `nop`, a word that does not decode, and one byte more. -/
def wordsAndByte : List UInt8 :=
  [0x1f, 0x20, 0x03, 0xd5, 0x00, 0x00, 0x00, 0x00, 0x1f]

/-- The last byte is the third item, whatever stands before it. -/
theorem sweep_fixedWidth_lastByte :
    (showingWords.isa = Arm64.isa ∨ showingWords.isa = C64x.isa) ∧
      (showingWords.sweep wordsAndByte 0xfffffffffffffffc).length = 3 ∧
      (showingWords.sweep wordsAndByte 0xfffffffffffffffc)[2]? =
        some (.ok (.data 4 [0x1f] ".byte")) ∧
      showingWords.sweep (wordsAndByte.take 4) 0xfffffffffffffffc ++
          showingWords.sweep (wordsAndByte.drop 4) 0 =
        showingWords.sweep wordsAndByte 0xfffffffffffffffc := by
  have family :
      showingWords.isa = Arm64.isa ∨ showingWords.isa = C64x.isa :=
    .inl rfl
  rcases sweep_fixedWidth family wordsAndByte 0xfffffffffffffffc with
    ⟨length, items, parts⟩
  have three :
      (showingWords.sweep wordsAndByte 0xfffffffffffffffc).length = 3 :=
    length
  refine ⟨family, three, ?_, parts 1⟩
  rw [items 2 (by omega)]
  rfl

end Engine

end MachineCode
