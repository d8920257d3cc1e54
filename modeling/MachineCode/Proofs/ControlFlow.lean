import MachineCode.Engine
import MachineCode.Proofs.Alias
import MachineCode.Proofs.Table.Decoding

/-!
# Groups and the flow of control

The groups of an instruction are listed with its opcode, while the flow of
control is derived from the operation, the operands and the condition. They
agree (`Instruction.IsTagged`) as soon as the groups of the opcode fit its
operation, and an opcode of relative branches comes with one target
(`OpcodeInfo.Tags`). Nothing else that is known of an instruction matters: not
its condition, and not the corrections to its detail record, as long as these
leave the groups of the flow of control alone.

The operands come from the format that stands beside the opcode in a table, so
it is enough to know how many targets each format of a branch reads
(`Isa.exists_tags_of_run`).
-/

namespace MachineCode

namespace ControlFlow

/-- Whether control goes elsewhere without a way back. -/
def isJump : ControlFlow → Bool
  | .branch _ | .conditionalBranch _ _ _ | .indirectBranch _ => true
  | _ => false

/-- The address to which control falls through, or returns from a call. -/
def next? : ControlFlow → Option Address
  | .conditionalBranch _ _ fallthrough => some fallthrough
  | .call _ returnAddress | .indirectCall returnAddress => some returnAddress
  | _ => none

end ControlFlow

/-- Whether control goes to what an operand says. -/
def Operation.isTransfer : Operation → Bool
  | .jump | .conditionalJump | .call => true
  | _ => false

/-- The branch targets among the operands. -/
def Operand.targets (operands : List Operand) : List Address :=
  operands.filterMap Operand.target?

/-- The groups that tell where control goes. -/
def Group.ofFlow : List Group :=
  [.call, .ret, .jump, .branchRelative]

/-- Whether the groups tell where control goes after the instruction. -/
structure Instruction.IsTagged
    (instruction : Instruction)
    (groups : Groups) :
    Prop where
  call : groups.has .call ↔ instruction.controlFlow.isCall
  ret : groups.has .ret ↔ instruction.controlFlow.isReturn
  jump :
    groups.has .jump ∧ ¬ groups.has .ret ↔ instruction.controlFlow.isJump
  relative :
    groups.has .branchRelative ↔
      ∃ target, instruction.controlFlow.target? = some target
  /-- The target of the flow of control is that of the only such operand. -/
  target :
    ∀ target, instruction.controlFlow.target? = some target →
      Operand.targets instruction.operands = [target]
  /-- Control falls through, or returns, to what follows. -/
  next :
    ∀ address, instruction.controlFlow.next? = some address →
      address = instruction.endAddress

namespace OpcodeInfo

/-- Whether the groups of an opcode fit its operation. -/
structure TagsOperation (info : OpcodeInfo) : Prop where
  call : info.groups.has .call ↔ info.operation = .call
  ret : info.groups.has .ret ↔ info.operation = .ret
  jump :
    info.groups.has .jump ∧ ¬ info.groups.has .ret ↔
      info.operation = .jump ∨ info.operation = .conditionalJump
  relative : info.groups.has .branchRelative → info.operation.isTransfer

/-- Whether a transfer has one target, or none, as the groups say. -/
def TakesTargets (info : OpcodeInfo) (operands : List Operand) : Prop :=
  info.operation.isTransfer →
    (Operand.targets operands).length =
      (info.groups.has .branchRelative).toNat

/-- Whether the groups of an opcode fit its operation and its operands. -/
structure Tags (info : OpcodeInfo) (operands : List Operand) : Prop
    extends info.TagsOperation where
  targets : info.TakesTargets operands

end OpcodeInfo

namespace Engine

section Flow

variable
  (info : OpcodeInfo)
  (operands : List Operand)
  (specifics : Specifics)
  (address : Address)
  (size : Nat)

theorem isCall_flow :
    (flow info operands specifics address size).isCall =
      decide (info.operation = .call) := by
  unfold flow
  cases info.operation <;> dsimp only <;> (try split) <;> rfl

theorem isReturn_flow :
    (flow info operands specifics address size).isReturn =
      decide (info.operation = .ret) := by
  unfold flow
  cases info.operation <;> dsimp only <;> (try split) <;> rfl

theorem isJump_flow :
    (flow info operands specifics address size).isJump =
      (info.operation = .jump || info.operation = .conditionalJump) := by
  unfold flow
  cases info.operation <;> dsimp only <;> (try split) <;> rfl

/-- The first target among the operands is where a transfer goes. -/
theorem target?_flow :
    (flow info operands specifics address size).target? =
      if info.operation.isTransfer then (Operand.targets operands).head?
      else none := by
  rw [Operand.targets, List.head?_filterMap]
  unfold flow
  generalize operands.findSome? Operand.target? = target
  cases info.operation with
  | jump | conditionalJump =>
      dsimp only [Operation.isTransfer]
      cases target with
      | none => rfl
      | some => split <;> simp_all [ControlFlow.target?]
  | call => cases target <;> rfl
  | _ => rfl

theorem eq_of_next?_flow
    {next : Address}
    (known :
      (flow info operands specifics address size).next? = some next) :
    next = address.advance size := by
  unfold flow at known
  cases isOperation : info.operation <;>
    simp only [isOperation] at known <;> (try split at known) <;>
    cases known <;> rfl

end Flow

end Engine

section Tags

variable {info : OpcodeInfo} {operands : List Operand}

/-- A transfer has the target that the groups announce. -/
theorem OpcodeInfo.Tags.relative_iff
    (tags : info.Tags operands)
    (transfer : info.operation.isTransfer) :
    info.groups.has .branchRelative ↔
      ∃ target, Operand.targets operands = [target] := by
  have count := tags.targets transfer
  constructor
  · intro relative
    rw [relative] at count
    exact List.length_eq_one_iff.mp count
  · rintro ⟨target, single⟩
    rw [single] at count
    cases relative : info.groups.has .branchRelative with
    | true => rfl
    | false =>
        rw [relative] at count
        cases count

/-- At most one operand of a transfer is a target. -/
theorem OpcodeInfo.Tags.targets_eq
    (tags : info.Tags operands)
    (transfer : info.operation.isTransfer)
    {target : Address}
    (first : (Operand.targets operands).head? = some target) :
    Operand.targets operands = [target] := by
  have count := tags.targets transfer
  rcases List.head?_eq_some_iff.mp first with ⟨others, targets⟩
  have short := Bool.toNat_le (info.groups.has .branchRelative)
  rw [targets, List.length_cons] at count
  have none : others = [] := List.length_eq_zero_iff.mp (by omega)
  rw [targets, none]

end Tags

/-! ## What has been decoded -/

namespace Isa

variable
  {isa : Isa}
  {table : Table}
  {features : Features}
  {word : Word}
  {raw : RawInstruction}

/-- Whether an opcode stands beside a format with the targets it takes. -/
def isTargeted
    (isa : Isa)
    (targets? : Nat → Option Nat)
    (opcode format : Nat) :
    Bool :=
  (isa.info? opcode).any fun info =>
    !info.operation.isTransfer ||
      targets? format = some (info.groups.has .branchRelative).toNat

/-- Whether a rule gives an opcode that transfers no control. -/
def staysPut (isa : Isa) (rule : Alias) : Bool :=
  (isa.info? rule.preferred).any fun info => !info.operation.isTransfer

section Tags

variable
  (tagsOperation :
    ∀ {opcode info}, isa.info? opcode = some info → info.TagsOperation)
  {targets? : Nat → Option Nat}
  (targeted :
    ∀ entry ∈ table.entries, entry.fits (isa.isTargeted targets?))
  (counted :
    ∀ {format count result},
      targets? format = some count →
        isa.readOperands format word = .ok result →
        (Operand.targets result.operands).length = count)
  (ran : isa.run table word features = .ok raw)
include tagsOperation targeted counted ran

/-- What has been decoded has the targets that its opcode takes. -/
theorem exists_tags_of_run :
    ∃ info,
      isa.info? raw.opcode = some info ∧ info.Tags raw.operands := by
  rcases exists_fit_of_run targeted ran with
    ⟨format, result, fits, read, operands, -⟩
  rcases (Option.any_eq_true _ _).mp fits with ⟨info, described, fits⟩
  refine ⟨info, described, tagsOperation described, ?_⟩
  intro transfer
  rw [transfer, Bool.not_true, Bool.false_or, decide_eq_true_eq] at fits
  rw [operands]
  exact counted fits read

/-- If no rule gives a transfer, the preferred form has such targets too. -/
theorem exists_tags_of_staysPut
    (staysPut : ∀ rule ∈ isa.aliases, isa.staysPut rule) :
    ∃ info,
      isa.info? (Alias.canonicalize isa.aliases raw.form).opcode =
          some info ∧
        info.Tags (Alias.canonicalize isa.aliases raw.form).operands := by
  rcases Alias.canonicalize_eq_or_exists isa.aliases raw.form with
    unchanged | ⟨rule, listed, applies⟩
  · rw [unchanged]
    exact exists_tags_of_run tagsOperation targeted counted ran
  · rcases Alias.exists_of_form? applies with ⟨-, reduced, -, result⟩
    rcases (Option.any_eq_true _ _).mp (staysPut rule listed) with
      ⟨info, described, stays⟩
    rw [Bool.not_eq_true'] at stays
    rw [result]
    refine ⟨info, described, tagsOperation described, ?_⟩
    intro transfer
    rw [stays] at transfer
    cases transfer

end Tags

end Isa

/-- Where control goes after a form. -/
def Isa.flowOf?
    (isa : Isa)
    (form : Form)
    (specifics : Specifics)
    (address : Address)
    (size : Nat) :
    Option ControlFlow :=
  (isa.info? form.opcode).map fun info =>
    Engine.flow info form.operands specifics address size

namespace Engine

variable {engine : Engine} {word : Word} {decoded : Decoded}

/-- Control goes where the preferred form says. -/
theorem exists_decodeWord_of_flowOf?
    {raw : RawInstruction}
    (read : engine.decodeRaw word = .ok raw)
    {flow : ControlFlow}
    (goes :
      engine.isa.flowOf? (Alias.canonicalize engine.isa.aliases raw.form)
          raw.specifics word.address word.size =
        some flow)
    (wantDetail : Bool) :
    ∃ decoded,
      engine.decodeWord word wantDetail = .ok decoded ∧
        decoded.instruction.controlFlow = flow := by
  rcases Option.map_eq_some_iff.mp goes with ⟨info, described, rfl⟩
  simp only [decodeWord, read, finishRaw, described]
  exact ⟨_, rfl, rfl⟩

/-- A word that decodes has been read and put into its preferred form. -/
theorem exists_raw_of_decodeWord
    {wantDetail : Bool}
    (success : engine.decodeWord word wantDetail = .ok decoded) :
    ∃ raw,
      engine.decodeRaw word = .ok raw ∧
        engine.finishRaw word raw wantDetail = .ok decoded := by
  rw [decodeWord] at success
  split at success
  · cases success
  · next raw read => exact ⟨raw, read, success⟩

/--
Groups that fit the operation and the operands tell the flow of control, and
so do the groups of a detail record that takes them over.
-/
theorem exists_isTagged
    {raw : RawInstruction}
    (tags :
      ∃ info,
        engine.isa.info?
            (Alias.canonicalize engine.isa.aliases raw.form).opcode =
          some info ∧
        info.Tags
          (Alias.canonicalize engine.isa.aliases raw.form).operands)
    (keeps :
      ∀ (detail : Detail), ∀ group ∈ Group.ofFlow,
        (engine.isa.completeDetail detail).groups.has group =
          detail.groups.has group)
    (finished : engine.finishRaw word raw true = .ok decoded) :
    ∃ detail,
      decoded.instruction.detail = some detail ∧
        decoded.instruction.IsTagged detail.groups := by
  rcases tags with ⟨info, described, tags⟩
  simp only [finishRaw, described] at finished
  cases finished
  refine ⟨_, rfl, ?_⟩
  have kept := keeps
    (info.detail (Alias.canonicalize engine.isa.aliases raw.form).operands
      raw.specifics)
  simp only [Group.ofFlow, List.forall_mem_cons] at kept
  rcases kept with ⟨keptCall, keptRet, keptJump, keptRelative, -⟩
  refine
    { call := ?call
      ret := ?ret
      jump := ?jump
      relative := ?relative
      target := ?target
      next := ?next }
  case call =>
    rw [keptCall, OpcodeInfo.detail, tags.call]
    simp [describe, isCall_flow]
  case ret =>
    rw [keptRet, OpcodeInfo.detail, tags.ret]
    simp [describe, isReturn_flow]
  case jump =>
    rw [keptJump, keptRet, OpcodeInfo.detail, tags.jump]
    simp [describe, isJump_flow]
  case relative =>
    rw [keptRelative, OpcodeInfo.detail]
    simp only [describe, target?_flow]
    split
    · next transfer =>
      rw [tags.relative_iff transfer]
      constructor
      · rintro ⟨target, single⟩
        exact ⟨target, by rw [single, List.head?_cons]⟩
      · rintro ⟨target, first⟩
        exact ⟨target, tags.targets_eq transfer first⟩
    · next other =>
      simp only [reduceCtorEq, exists_false, iff_false]
      exact fun relative => other (tags.relative relative)
  case target =>
    intro target known
    simp only [describe, target?_flow] at known
    split at known
    · next transfer => exact tags.targets_eq transfer known
    · cases known
  case next =>
    intro address known
    exact eq_of_next?_flow _ _ _ _ _ known

end Engine

end MachineCode
