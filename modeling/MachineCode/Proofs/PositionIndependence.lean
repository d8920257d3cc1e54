import MachineCode.Proofs.Arm64.Moved
import MachineCode.Proofs.C64x.Moved
import MachineCode.Proofs.PreferredTouch
import MachineCode.Proofs.RiscV.Moved

/-!
# Decoding does not depend on the address

The same bytes at another address are the same instruction, with its targets
moved along, or the same error (`Engine.movedOutcome_decodeWith`). Where
targets are relative to a page or to a fetch packet, the two addresses must be
whole pages or fetch packets apart (`Architecture.grain`); addresses wrap
around.
-/

namespace MachineCode

namespace Architecture

/-- The number of bytes in a block that targets are relative to. -/
def grain : Architecture → Nat
  | .arm64 => 4096
  | .c64x => 32
  | .riscV64 | .riscV32 | .unknown _ => 1

/-- Whole pages of 4096 bytes are whole blocks in every family. -/
theorem grain_dvd (architecture : Architecture) :
    architecture.grain ∣ 4096 := by
  cases architecture with
  | arm64 | c64x => decide
  | riscV64 | riscV32 | unknown => exact Nat.one_dvd _

theorem moves
    {architecture : Architecture}
    {isa : Isa}
    (known : architecture.isa? = some isa)
    {distance : Address}
    (whole : architecture.grain ∣ distance.toNat) :
    isa.Moves distance := by
  cases architecture with
  | arm64 =>
      cases known
      exact Arm64.moves whole
  | riscV64 | riscV32 =>
      cases known
      exact RiscV.moves _ distance
  | c64x =>
      cases known
      exact C64x.moves whole
  | unknown => cases known

end Architecture

/--
Decoding bytes at an address that is `distance` higher fails with the same
error, or gives the same instruction, where errors, targets and the flow of
control have their addresses moved by `distance`.
-/
theorem Engine.movedOutcome_decodeWith
    {architecture : Architecture}
    {engine : Engine}
    (known : architecture.isa? = some engine.isa)
    {distance : Address}
    (whole : architecture.grain ∣ distance.toNat)
    (input : List UInt8)
    (address : Address)
    (wantDetail : Bool) :
    MovedOutcome distance (engine.decodeWith input address wantDetail)
      (engine.decodeWith input (address + distance) wantDetail) :=
  (Architecture.moves known whole).decodeWith engine.options input address
    wantDetail

/-- The bytes of an `adrp x0` with the page that follows its own. -/
def nextPageInput : List UInt8 :=
  [0x00, 0x00, 0x00, 0xb0]

set_option maxRecDepth 20000 in
/-- The page after the last one is the first, and it moves as others do. -/
theorem Engine.movedOutcome_decodeWith_lastPage :
    Architecture.arm64.isa? = some Arm64.isa ∧
      Architecture.arm64.grain ∣ (0x1000 : Address).toNat ∧
      ∃ last first,
        Engine.decodeWith ⟨Arm64.isa, {}⟩ nextPageInput
            0xfffffffffffff008 true = .ok last ∧
          last.instruction.operands.filterMap Operand.target? = [0] ∧
          Engine.decodeWith ⟨Arm64.isa, {}⟩ nextPageInput 0x8 true =
            .ok first ∧
          last.instruction.MovedBy 0x1000 first.instruction := by
  have known : Architecture.arm64.isa? = some Arm64.isa := rfl
  have whole : Architecture.arm64.grain ∣ (0x1000 : Address).toNat :=
    Architecture.grain_dvd .arm64
  obtain ⟨last, decoded, target⟩ :
      ∃ last,
        Engine.decodeWith ⟨Arm64.isa, {}⟩ nextPageInput
            0xfffffffffffff008 true = .ok last ∧
          last.instruction.operands.filterMap Operand.target? = [0] :=
    ⟨_, rfl, by decide⟩
  have outcome :=
    @Engine.movedOutcome_decodeWith _ ⟨Arm64.isa, {}⟩ known _ whole
      nextPageInput 0xfffffffffffff008 true
  rw [decoded] at outcome
  cases wrapped : Engine.decodeWith ⟨Arm64.isa, {}⟩ nextPageInput
      (0xfffffffffffff008 + 0x1000) true with
  | error =>
      rw [wrapped] at outcome
      cases outcome
  | ok first =>
      rw [wrapped] at outcome
      cases outcome with
      | decoded _ moved =>
          exact ⟨known, whole, last, first, decoded, target, wrapped, moved⟩

end MachineCode
