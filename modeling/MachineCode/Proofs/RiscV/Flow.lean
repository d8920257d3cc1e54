import MachineCode.Proofs.ControlFlow
import MachineCode.Proofs.RiscV.PreferredForm
import MachineCode.Proofs.RiscV.ShortOperands

/-!
# Groups and the flow of control of RISC-V instructions

Jumps and branches are put into preferred forms that are of other opcodes. The
places that such a form leaves out hold registers and constants, so the target
of a branch is still there (`targets_of_fill`), and the opcodes of both forms
announce it (`isTransfer_of_meaning?`).
-/

namespace MachineCode.RiscV

theorem Opcode.tagsOperation (opcode : Opcode) :
    opcode.info.TagsOperation := by
  cases opcode <;>
    exact ⟨by decide, by decide, by decide, by decide⟩

/-! ## Raw forms -/

namespace Wide

/-- The number of targets that the format of a jump or a branch reads. -/
def targets? : Format → Option Nat
  | .jump | .branch => some 1
  | .jumpRegister => some 0
  | _ => none

theorem length_targets_of_read
    {xlen : Xlen}
    {word : Word}
    (four : word.size = 4)
    {format : Format}
    {count : Nat}
    (branches : targets? format = some count)
    {result : Reading}
    (read : format.read xlen word = .ok result) :
    (Operand.targets result.operands).length = count := by
  cases format with
  | jump =>
      rw [Format.read, readJump_eq four] at read
      cases read
      cases branches
      rfl
  | branch =>
      rw [Format.read, readBranch_eq four] at read
      cases read
      cases branches
      rfl
  | jumpRegister =>
      rw [Format.read, readConstant_eq four] at read
      cases read
      cases branches
      rfl
  | _ => cases branches

theorem isTargeted_of_mem (xlen : Xlen) :
    ∀ entry ∈ table.entries,
      entry.fits
        ((isa xlen).isTargeted fun format =>
          (Format.ofId? format).bind targets?) := by
  cases xlen <;> decide +kernel

end Wide

namespace Compressed

/-- The number of targets that the format of a jump or a branch reads. -/
def targets? : Format → Option Nat
  | .shortJump | .shortBranch => some 1
  | .shortJumpRegister => some 0
  | _ => none

theorem length_targets_of_read
    {xlen : Xlen}
    {word : Word}
    (two : word.size = 2)
    {format : Format}
    {count : Nat}
    (branches : targets? format = some count)
    {result : Reading}
    (read : format.read xlen word = .ok result) :
    (Operand.targets result.operands).length = count := by
  cases format with
  | shortJump =>
      cases branches
      rw [(readsAs_of_readShortJump two read).1]
      rfl
  | shortBranch =>
      cases branches
      rw [(readsAs_of_readShortBranch two read).1]
      rfl
  | shortJumpRegister =>
      cases branches
      rw [(readsAs_of_readShortJumpRegister two read).1]
      rfl
  | _ => cases branches

theorem isTargeted_of_mem (xlen : Xlen) :
    ∀ entry ∈ table.entries,
      entry.fits
        ((isa xlen).isTargeted fun format =>
          (Format.ofId? format).bind targets?) := by
  cases xlen <;> decide +kernel

end Compressed

section Run

variable
  {xlen : Xlen}
  {options : Options}
  {word : Word}
  {raw : RawInstruction}

theorem exists_opcode_of_info?
    {number : Nat}
    {info : OpcodeInfo}
    (described : (isa xlen).info? number = some info) :
    ∃ opcode : Opcode,
      Opcode.ofId? number = some opcode ∧ info = opcode.info := by
  rcases Option.map_eq_some_iff.mp described with ⟨opcode, named, rfl⟩
  exact ⟨opcode, named, rfl⟩

theorem exists_tags_of_run
    (decoded : Engine.decodeRaw ⟨isa xlen, options⟩ word = .ok raw) :
    ∃ info,
      (isa xlen).info? raw.opcode = some info ∧ info.Tags raw.operands := by
  have tagsOperation :
      ∀ {opcode info},
        (isa xlen).info? opcode = some info → info.TagsOperation := by
    intro opcode info described
    rcases exists_opcode_of_info? described with ⟨named, -, rfl⟩
    exact named.tagsOperation
  rcases run_of_decodeRaw decoded with ⟨two, ran⟩ | ⟨four, ran⟩
  · refine Isa.exists_tags_of_run tagsOperation
      (Compressed.isTargeted_of_mem xlen) ?_ ran
    intro number count result targets read
    rcases exists_format_of_readOperands read with ⟨format, named, read⟩
    rw [named] at targets
    exact Compressed.length_targets_of_read two targets read
  · refine Isa.exists_tags_of_run tagsOperation
      (Wide.isTargeted_of_mem xlen) ?_ ran
    intro number count result targets read
    rcases exists_format_of_readOperands read with ⟨format, named, read⟩
    rw [named] at targets
    exact Wide.length_targets_of_read four targets read

end Run

/-! ## Preferred forms -/

/-- The places hold no branch target that is not shown. -/
theorem targets_of_fill
    {xlen : Xlen}
    {slots : List Slot}
    {shown operands : List Operand}
    (filled : Slot.fill xlen slots shown = some operands) :
    Operand.targets operands = Operand.targets shown := by
  fun_induction Slot.fill xlen slots shown generalizing operands with
  | case1 => cases filled; rfl
  | case2 slots operand shown induction =>
      rcases Option.map_eq_some_iff.mp filled with ⟨rest, fills, rfl⟩
      simp only [Operand.targets, List.filterMap_cons]
      rw [← Operand.targets, ← Operand.targets, induction fills]
  | case3 _ _ _ induction | case4 _ _ _ induction | case5 _ _ _ induction =>
      rcases Option.map_eq_some_iff.mp filled with ⟨rest, fills, rfl⟩
      have same := induction fills
      exact same
  | case6 => cases filled

/-- A pseudo-instruction that transfers control stands for one that does. -/
theorem isTransfer_of_meaning?
    {shown : Opcode}
    {meaning : Meaning}
    (listed : shown.meaning? = some meaning)
    (transfer : shown.info.operation.isTransfer) :
    meaning.base.info.operation.isTransfer ∧
      meaning.base.info.groups.has .branchRelative =
        shown.info.groups.has .branchRelative := by
  unfold Opcode.meaning? at listed
  split at listed <;> cases listed
  all_goals first | exact ⟨rfl, rfl⟩ | cases transfer

/-- The preferred form of what has been decoded fits its groups. -/
theorem exists_tags
    {xlen : Xlen}
    {options : Options}
    {word : Word}
    {raw : RawInstruction}
    (decoded : Engine.decodeRaw ⟨isa xlen, options⟩ word = .ok raw) :
    ∃ info,
      (isa xlen).info?
          (Alias.canonicalize (isa xlen).aliases raw.form).opcode =
        some info ∧
        info.Tags
          (Alias.canonicalize (isa xlen).aliases raw.form).operands := by
  rcases exists_tags_of_run decoded with ⟨rawInfo, described, tags⟩
  rcases eq_or_fillsPlaces_of_decodeRaw decoded with unchanged | fills
  · rw [unchanged]
    exact ⟨rawInfo, described, tags⟩
  · rcases fills with ⟨shown, meaning, listed, isBase, isShown, filled⟩
    rcases exists_opcode_of_info? described with ⟨base, named, rfl⟩
    rw [← isBase, Opcode.ofId?_id, Option.some.injEq] at named
    rw [isShown]
    refine ⟨shown.info, by simp [isa], shown.tagsOperation, ?_⟩
    intro transfer
    rcases isTransfer_of_meaning? listed transfer with
      ⟨baseTransfer, sameRelative⟩
    rw [← targets_of_fill filled, ← sameRelative, named]
    exact tags.targets (named ▸ baseTransfer)

end MachineCode.RiscV
