import MachineCode.Arm64.InstructionSet
import MachineCode.Proofs.Arm64.Operands
import MachineCode.Proofs.ControlFlow

/-!
# Groups and the flow of control of Arm64 instructions

Only the opcodes that the decode table reads in the branch formats transfer
control, and no preferred form is one of them. So the groups of whatever has
been decoded fit its operation and its operands (`exists_tags`).
-/

namespace MachineCode.Arm64

theorem Opcode.tagsOperation (opcode : Opcode) :
    opcode.info.TagsOperation := by
  cases opcode <;>
    exact ⟨by decide, by decide, by decide, by decide⟩

/-- The number of targets that a branch format reads. -/
def Format.targets? : Format → Option Nat
  | .branch | .conditionalBranch | .compareBranch | .testBranch => some 1
  | .branchRegister => some 0
  | _ => none

theorem length_targets_of_read
    {word : Word}
    (four : word.size = 4)
    {format : Format}
    {count : Nat}
    (branches : format.targets? = some count)
    {result : Reading}
    (read : format.read word = .ok result) :
    (Operand.targets result.operands).length = count := by
  cases format with
  | branch =>
      rw [Format.read, readBranch_eq four] at read
      cases read
      cases branches
      rfl
  | conditionalBranch =>
      rw [Format.read, readConditionalBranch_eq four] at read
      cases read
      cases branches
      rfl
  | compareBranch =>
      rw [Format.read, readCompareBranch_eq four] at read
      cases read
      cases branches
      rfl
  | testBranch =>
      rw [Format.read, readTestBranch_eq four] at read
      cases read
      cases branches
      rfl
  | branchRegister =>
      rw [Format.read, readBranchRegister_eq four] at read
      cases read
      cases branches
      rfl
  | _ => cases branches

/-- The number of targets that the format of a number reads. -/
def targetsOf? (format : Nat) : Option Nat :=
  (Format.ofId? format).bind Format.targets?

set_option maxRecDepth 20000 in
theorem isTargeted_of_mem :
    ∀ entry ∈ table.entries, entry.fits (isa.isTargeted targetsOf?) := by
  decide

set_option maxRecDepth 2000 in
theorem staysPut_of_mem : ∀ rule ∈ isa.aliases, isa.staysPut rule := by
  decide

/-- The preferred form of what has been decoded fits its groups. -/
theorem exists_tags
    {word : Word}
    (four : word.size = 4)
    {features : Features}
    {raw : RawInstruction}
    (ran : isa.run table word features = .ok raw) :
    ∃ info,
      isa.info? (Alias.canonicalize isa.aliases raw.form).opcode =
          some info ∧
        info.Tags (Alias.canonicalize isa.aliases raw.form).operands := by
  refine Isa.exists_tags_of_staysPut ?_ isTargeted_of_mem ?_ ran
    staysPut_of_mem
  · intro opcode info described
    rcases Option.map_eq_some_iff.mp described with ⟨named, -, rfl⟩
    exact named.tagsOperation
  · intro format count result targets read
    rcases Option.bind_eq_some_iff.mp targets with ⟨named, known, targets⟩
    have readBranch : named.read word = .ok result := by
      simpa [isa, known] using read
    exact length_targets_of_read four targets readBranch

/-- The corrections to a detail record add privilege at most. -/
theorem has_completeDetail
    (detail : Detail)
    {group : Group}
    (flow : group ∈ Group.ofFlow) :
    (completeDetail detail).groups.has group = detail.groups.has group := by
  have other : group ≠ .privilege := by
    rintro rfl
    simp [Group.ofFlow] at flow
  simp only [completeDetail]
  split <;> simp [other]

end MachineCode.Arm64
