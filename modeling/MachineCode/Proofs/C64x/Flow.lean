import MachineCode.C64x.InstructionSet
import MachineCode.Proofs.ControlFlow

/-!
# Groups and the flow of control of C64x instructions

A branch names its target, or the register that holds it; a return through a
control register has an opcode of its own. No idiom transfers control.
-/

namespace MachineCode.C64x

theorem Opcode.tagsOperation (opcode : Opcode) :
    opcode.info.TagsOperation := by
  cases opcode <;>
    exact ⟨by decide, by decide, by decide, by decide⟩

/-- A reading that succeeds has read its first part. -/
theorem exists_of_bind
    {α β : Type}
    {first : Read α}
    {rest : α → Read β}
    {result : β}
    (read : (first >>= rest) = .ok result) :
    ∃ part, first = .ok part ∧ rest part = .ok result := by
  cases first with
  | error => cases read
  | ok part => exact ⟨part, rfl, read⟩

/-- The number of targets that a branch format reads. -/
def Format.targets? : Format → Option Nat
  | .branch => some 1
  | .branchRegister => some 0
  | _ => none

theorem length_targets_of_read
    {word : Word}
    {format : Format}
    {count : Nat}
    (branches : format.targets? = some count)
    {result : Reading}
    (read : format.read word = .ok result) :
    (Operand.targets result.operands).length = count := by
  cases format with
  | branch =>
      rcases exists_of_bind read with ⟨side, -, read⟩
      rcases exists_of_bind read with ⟨facts, -, read⟩
      rcases exists_of_bind read with ⟨displacement, -, read⟩
      cases read
      cases branches
      rfl
  | branchRegister =>
      rcases exists_of_bind read with ⟨side, -, read⟩
      rcases exists_of_bind read with ⟨crossed, -, read⟩
      rcases exists_of_bind read with ⟨facts, -, read⟩
      rcases exists_of_bind read with ⟨number, -, read⟩
      rcases exists_of_bind read with ⟨target, -, read⟩
      cases read
      cases branches
      rfl
  | _ => cases branches

/-- The number of targets that the format of a number reads. -/
def targetsOf? (format : Nat) : Option Nat :=
  (Format.ofId? format).bind Format.targets?

set_option maxRecDepth 20000 in
theorem isTargeted_of_mem :
    ∀ entry ∈ table.entries, entry.fits (isa.isTargeted targetsOf?) := by
  decide

set_option maxRecDepth 2000 in
theorem staysPut_of_mem : ∀ rule ∈ isa.aliases, isa.staysPut rule := by
  decide

/-- The preferred form of what has been decoded fits its groups. -/
theorem exists_tags
    {word : Word}
    {features : Features}
    {raw : RawInstruction}
    (ran : isa.run table word features = .ok raw) :
    ∃ info,
      isa.info? (Alias.canonicalize isa.aliases raw.form).opcode =
          some info ∧
        info.Tags (Alias.canonicalize isa.aliases raw.form).operands := by
  refine Isa.exists_tags_of_staysPut ?_ isTargeted_of_mem ?_ ran
    staysPut_of_mem
  · intro opcode info described
    rcases Option.map_eq_some_iff.mp described with ⟨named, -, rfl⟩
    exact named.tagsOperation
  · intro format count result targets read
    rcases Option.bind_eq_some_iff.mp targets with ⟨named, known, targets⟩
    have readBranch : named.read word = .ok result := by
      simpa [isa, known] using read
    exact length_targets_of_read targets readBranch

/-- The corrections to a detail record add a functional unit. -/
theorem has_completeDetail
    (detail : Detail)
    {group : Group}
    (flow : group ∈ Group.ofFlow) :
    (completeDetail detail).groups.has group = detail.groups.has group := by
  have other : ∀ unit : FunctionalUnit, group ≠ unit.group := by
    rintro unit rfl
    cases unit <;> simp [Group.ofFlow, FunctionalUnit.group] at flow
  unfold completeDetail
  split
  · simp [other]
  · rfl

end MachineCode.C64x
