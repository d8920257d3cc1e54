import MachineCode.Proofs.FirstWord
import MachineCode.Proofs.PreferredTouch

/-!
# Inputs that end too early

A decoding whose outcome is final has the same outcome on every longer input,
and one that asks for more input keeps asking for the same number of bytes
until it has them (`Engine.decodeWith_append`). The instruction sets of all
families are content with the eight bytes of the longest word.
-/

namespace MachineCode

namespace WidthRule

/-- Whether no word takes more than a number of bytes. -/
structure AtMost (rule : WidthRule) (bound : Nat) : Prop where
  least_le : rule.least ≤ bound
  size_le : ∀ {input size}, rule.size? input = some size → size ≤ bound

theorem AtMost.needed?_eq_none
    {rule : WidthRule}
    {bound : Nat}
    (atMost : rule.AtMost bound)
    {input : List UInt8}
    (long : bound ≤ input.length) :
    rule.needed? input = none := by
  rw [needed?_eq_none_iff]
  exact ⟨Nat.le_trans atMost.least_le long,
    fun _ selected => Nat.le_trans (atMost.size_le selected) long⟩

theorem atMost_fixed {size bound : Nat} (small : size ≤ bound) :
    (fixed size).AtMost bound where
  least_le := small
  size_le selected := Option.some.inj selected ▸ small

end WidthRule

/-- No length that leading bytes of RISC-V code select exceeds eight. -/
theorem RiscV.wordSize?_le
    {input : List UInt8}
    {size : Nat}
    (selected : wordSize? input = some size) :
    size ≤ Word.maxSize := by
  cases input with
  | nil => cases selected
  | cons byte rest =>
      simp only [wordSize?] at selected
      repeat' split at selected
      all_goals cases selected
      all_goals decide

theorem Architecture.atMost_widthRule
    {architecture : Architecture}
    {isa : Isa}
    (known : architecture.isa? = some isa) :
    isa.widthRule.AtMost Word.maxSize := by
  cases architecture with
  | arm64 | c64x =>
      cases known
      exact WidthRule.atMost_fixed (by decide)
  | riscV64 | riscV32 =>
      cases known
      exact ⟨by decide, RiscV.wordSize?_le⟩
  | unknown => cases known

namespace Engine

/-- An outcome asks for more input just if the input is too short. -/
theorem needed?_eq_some_of_insufficientInput
    {engine : Engine}
    {input : List UInt8}
    {address : Address}
    {wantDetail : Bool}
    {place : Address}
    {needed available : Nat}
    (asks :
      engine.decodeWith input address wantDetail =
        .error (.insufficientInput place needed available)) :
    engine.needed? input = some needed ∧
      place = address ∧ available = input.length := by
  cases enough : engine.needed? input with
  | none => cases isFinal_of_needed? enough asks
  | some count =>
      rw [decodeWith_of_needed? enough] at asks
      cases asks
      exact ⟨rfl, rfl, rfl⟩

/--
Decoding a longer input. A final outcome stays. A request for more input is
about the input at hand, and stays until the input is as long as requested.
No family requests more than eight bytes.
-/
theorem decodeWith_append
    (engine : Engine)
    (input more : List UInt8)
    (address : Address)
    (wantDetail : Bool) :
    ((∀ error,
        engine.decodeWith input address wantDetail = .error error →
          error.isFinal) →
      engine.decodeWith (input ++ more) address wantDetail =
        engine.decodeWith input address wantDetail) ∧
    (∀ place needed available,
      engine.decodeWith input address wantDetail =
          .error (.insufficientInput place needed available) →
        place = address ∧
          available = input.length ∧
          input.length < needed ∧
          ((input ++ more).length < needed →
            engine.decodeWith (input ++ more) address wantDetail =
              .error
                (.insufficientInput address needed
                  (input ++ more).length))) ∧
    (∀ architecture : Architecture,
      architecture.isa? = some engine.isa →
        Word.maxSize ≤ input.length →
        ∀ error,
          engine.decodeWith input address wantDetail = .error error →
            error.isFinal) := by
  refine ⟨?stays, ?requests, ?content⟩
  case stays =>
    intro final
    cases enough : engine.needed? input with
    | none => exact decodeWith_append_of_needed? enough more
    | some needed => cases final _ (decodeWith_of_needed? enough)
  case requests =>
    intro place needed available asks
    rcases needed?_eq_some_of_insufficientInput asks with
      ⟨short, samePlace, length⟩
    refine ⟨samePlace, length, WidthRule.length_lt_of_needed? short, ?_⟩
    intro still
    exact decodeWith_of_needed? (WidthRule.needed?_append short still)
  case content =>
    intro architecture known long error failed
    have atMost := Architecture.atMost_widthRule known
    exact isFinal_of_needed? (atMost.needed?_eq_none long) failed

/-- Two bytes of `addi a0, zero, 0` ask for four, and so do three. -/
theorem decodeWith_append_shortWord :
    Engine.decodeWith ⟨RiscV.isa .rv64, {}⟩ [0x13, 0x05] 0x1000 false =
        .error (.insufficientInput 0x1000 4 2) ∧
      Engine.decodeWith ⟨RiscV.isa .rv64, {}⟩ ([0x13, 0x05] ++ [0x00]) 0x1000
          false =
        .error (.insufficientInput 0x1000 4 3) ∧
      ∃ decoded,
        Engine.decodeWith ⟨RiscV.isa .rv64, {}⟩ [0x13, 0x05, 0x00, 0x00]
            0x1000 false =
          .ok decoded ∧
        Engine.decodeWith ⟨RiscV.isa .rv64, {}⟩
            ([0x13, 0x05, 0x00, 0x00] ++ [0xff]) 0x1000 false =
          .ok decoded := by
  have asks :
      Engine.decodeWith ⟨RiscV.isa .rv64, {}⟩ [0x13, 0x05] 0x1000 false =
        .error (.insufficientInput 0x1000 4 2) := rfl
  rcases (decodeWith_append _ _ [0x00] _ _).2.1 _ _ _ asks with
    ⟨-, -, -, still⟩
  obtain ⟨decoded, success⟩ :
      ∃ decoded,
        Engine.decodeWith ⟨RiscV.isa .rv64, {}⟩ [0x13, 0x05, 0x00, 0x00]
            0x1000 false =
          .ok decoded :=
    ⟨_, rfl⟩
  refine ⟨asks, still (by decide), decoded, success, ?_⟩
  rw [(decodeWith_append _ _ [0xff] _ _).1, success]
  intro error failed
  rw [success] at failed
  cases failed

end Engine

end MachineCode
