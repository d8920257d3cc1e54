import MachineCode.Proofs.Arm64.AccessList
import MachineCode.Proofs.C64x.AccessList
import MachineCode.Proofs.RiscV.AccessList

/-!
# Every operand of an instruction is accessed

The access lists of opcodes go by the places of operands, and the number of
operands varies within an opcode. For every family and every input that
decodes, the detail record has the operands of the instruction, in order, and
each has the access at its own place (`decodeWith_isAccessed`): none lies past
the end of the list, and none that cannot hold a result is written.
-/

namespace MachineCode

/-- Whether a register is one of the family. -/
def Architecture.Owns : Architecture → Register → Prop
  | .arm64 => Arm64.Owns
  | .riscV64 => RiscV.Xlen.rv64.Owns
  | .riscV32 => RiscV.Xlen.rv32.Owns
  | .c64x => C64x.Owns
  | .unknown _ => fun _ => False

section Known

variable
  {architecture : Architecture}
  {isa : Isa}
  (known : architecture.isa? = some isa)
  {options : Options}
  {input : List UInt8}
  {address : Address}
  {decoded : Decoded}
  (success :
    Engine.decodeWith ⟨isa, options⟩ input address true = .ok decoded)
include known success

/-- An instruction that decodes is described by its opcode. -/
theorem Architecture.exists_isDescribed :
    ∃ info detail,
      decoded.instruction.IsDescribed isa architecture.Owns info detail := by
  rcases Engine.exists_word_of_decodeWith success with ⟨word, -, success⟩
  cases architecture with
  | arm64 =>
      cases known
      exact Arm64.exists_isDescribed success
  | riscV64 | riscV32 =>
      cases known
      exact RiscV.exists_isDescribed success
  | c64x =>
      cases known
      exact C64x.exists_isDescribed success
  | unknown => cases known

/--
The detail record has the operands of the instruction, with the accesses that
the opcode lists for their places. Each of them is accessed, and only
registers, lists of registers, memory and system registers are written.
-/
theorem decodeWith_isAccessed :
    ∃ info detail,
      decoded.instruction.opcode.bind isa.info? = some info ∧
        decoded.instruction.detail = some detail ∧
        detail.operands.map AccessedOperand.operand =
          decoded.instruction.operands ∧
        decoded.instruction.operands.length ≤ info.access.length ∧
        detail.operands.map AccessedOperand.access =
          info.access.take decoded.instruction.operands.length ∧
        ∀ accessed ∈ detail.operands, accessed.IsProper := by
  rcases Architecture.exists_isDescribed known success with
    ⟨info, detail, described⟩
  refine ⟨info, detail, described.opcode_eq, described.detail_eq, ?_⟩
  rw [described.operands_eq]
  exact ⟨OpcodeInfo.accessOperands_operands .., described.suits.length_le,
    described.suits.map_access, fun _ => described.suits.isProper_of_mem⟩

end Known

/-- The bytes of `add x0, x1, #1, lsl #12`. -/
def shiftedSumBytes : List UInt8 :=
  [0x20, 0x04, 0x40, 0x91]

set_option maxRecDepth 20000 in
/-- The shift after a constant has an access of its own. -/
theorem decodeWith_isAccessed_shiftedSum :
    Architecture.arm64.isa? = some Arm64.isa ∧
      ∃ decoded info detail,
        Engine.decodeWith ⟨Arm64.isa, {}⟩ shiftedSumBytes 0x1000 true =
            .ok decoded ∧
          decoded.instruction.operands.map Operand.kind =
            [.register, .register, .immediate, .shift] ∧
          decoded.instruction.opcode.bind Arm64.isa.info? = some info ∧
          decoded.instruction.detail = some detail ∧
          detail.operands.map AccessedOperand.access =
            info.access.take 4 ∧
          ∀ accessed ∈ detail.operands, accessed.IsProper := by
  obtain ⟨decoded, success, kinds⟩ :
      ∃ decoded,
        Engine.decodeWith ⟨Arm64.isa, {}⟩ shiftedSumBytes 0x1000 true =
            .ok decoded ∧
          decoded.instruction.operands.map Operand.kind =
            [.register, .register, .immediate, .shift] :=
    ⟨_, rfl, by decide⟩
  have known : Architecture.arm64.isa? = some Arm64.isa := rfl
  rcases decodeWith_isAccessed known success with
    ⟨info, detail, described, carried, -, -, accesses, proper⟩
  have four := congrArg List.length kinds
  rw [List.length_map] at four
  rw [four] at accesses
  exact ⟨known, decoded, info, detail, success, kinds, described, carried,
    accesses, proper⟩

end MachineCode
