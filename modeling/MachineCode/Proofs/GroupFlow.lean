import MachineCode.Proofs.Arm64.Flow
import MachineCode.Proofs.C64x.Flow
import MachineCode.Proofs.PreferredTouch
import MachineCode.Proofs.RiscV.Flow

/-!
# The groups of an instruction tell where control goes

For every family and every word that decodes, the groups in the detail record
agree with the flow of control (`decodeWord_isTagged`): a call is tagged as a
call, a return as a return, a jump as a jump, and a relative branch goes to
the target among its operands. Control falls through, or returns from a call,
to the end of the instruction.
-/

namespace MachineCode

/-- The groups of a detail record agree with the flow of control. -/
theorem decodeWord_isTagged
    {architecture : Architecture}
    {isa : Isa}
    (known : architecture.isa? = some isa)
    {options : Options}
    {word : Word}
    {decoded : Decoded}
    (success : Engine.decodeWord ⟨isa, options⟩ word true = .ok decoded) :
    ∃ detail,
      decoded.instruction.detail = some detail ∧
        decoded.instruction.IsTagged detail.groups := by
  rcases Engine.exists_raw_of_decodeWord success with ⟨raw, read, finished⟩
  cases architecture with
  | arm64 =>
      cases known
      rcases Engine.run_of_decodeRaw (fun _ => rfl) read with ⟨four, ran⟩
      exact Engine.exists_isTagged (Arm64.exists_tags four ran)
        (fun detail _ => Arm64.has_completeDetail detail) finished
  | riscV64 | riscV32 =>
      cases known
      exact Engine.exists_isTagged (RiscV.exists_tags read)
        (fun _ _ _ => rfl) finished
  | c64x =>
      cases known
      rcases Engine.run_of_decodeRaw (fun _ => rfl) read with ⟨-, ran⟩
      exact Engine.exists_isTagged (C64x.exists_tags ran)
        (fun detail _ => C64x.has_completeDetail detail) finished
  | unknown => cases known

/-- A word of `[b0] b .S1 0x1010`, which branches if a register is set. -/
def guardedBranchWord : Word :=
  ⟨[0x20, 0x00, 0x02, 0x10], 0x1000, 0x20000210, by simp, by decide⟩

set_option maxRecDepth 20000 in
/-- A predicate makes a branch conditional, and its groups still fit. -/
theorem decodeWord_isTagged_guarded :
    Architecture.c64x.isa? = some C64x.isa ∧
      ∃ decoded detail,
        Engine.decodeWord ⟨C64x.isa, {}⟩ guardedBranchWord true =
            .ok decoded ∧
          decoded.instruction.controlFlow =
            .conditionalBranch 0x1010 .notEqual 0x1004 ∧
          decoded.instruction.detail = some detail ∧
          decoded.instruction.IsTagged detail.groups := by
  obtain ⟨decoded, success, branches⟩ :
      ∃ decoded,
        Engine.decodeWord ⟨C64x.isa, {}⟩ guardedBranchWord true =
            .ok decoded ∧
          decoded.instruction.controlFlow =
            .conditionalBranch 0x1010 .notEqual 0x1004 :=
    ⟨_, rfl, by decide⟩
  have known : Architecture.c64x.isa? = some C64x.isa := rfl
  rcases decodeWord_isTagged known success with ⟨detail, carried, tagged⟩
  exact ⟨known, decoded, detail, success, branches, carried, tagged⟩

end MachineCode
