import MachineCode.Proofs.Alias
import MachineCode.Proofs.RiscV.Operands

/-!
# Preferred forms of jumps

The raw jumps `jal` and `jalr` link any register, and `jalr` adds any offset.
The rules for them catch the zero register and the link register as what is
linked, and of `jalr` only the forms without an offset; all other jumps are
shown as they are.
-/

namespace MachineCode.RiscV

/-- The rules for `jal`, in the order in which they are tried. -/
theorem canonicalize_jal (operands : List Operand) :
    Alias.canonicalize pseudos ⟨Opcode.jal.id, operands⟩ =
      match linking zeroRegister operands,
        linking linkRegister operands with
      | some reduced, _ => ⟨Opcode.j.id, reduced⟩
      | none, some reduced => ⟨Opcode.jalLink.id, reduced⟩
      | none, none => ⟨Opcode.jal.id, operands⟩ := by
  have own :
      (pseudos.filter fun rule => rule.opcode = Opcode.jal.id) =
        [pseudo .jal .j (linking zeroRegister),
          pseudo .jal .jalLink (linking linkRegister)] :=
    rfl
  rw [← Alias.canonicalize_filter, own]
  cases jumps : linking zeroRegister operands <;>
    cases links : linking linkRegister operands <;>
    simp [Alias.canonicalize, Alias.form?, pseudo, jumps, links]

/-- The rules for `jalr`, in the order in which they are tried. -/
theorem canonicalize_jalr (operands : List Operand) :
    Alias.canonicalize pseudos ⟨Opcode.jalr.id, operands⟩ =
      match returning operands, linkingRegister zeroRegister operands,
        linkingRegister linkRegister operands with
      | some reduced, _, _ => ⟨Opcode.ret.id, reduced⟩
      | none, some reduced, _ => ⟨Opcode.jr.id, reduced⟩
      | none, none, some reduced => ⟨Opcode.jalrLink.id, reduced⟩
      | none, none, none => ⟨Opcode.jalr.id, operands⟩ := by
  have own :
      (pseudos.filter fun rule => rule.opcode = Opcode.jalr.id) =
        [pseudo .jalr .ret returning,
          pseudo .jalr .jr (linkingRegister zeroRegister),
          pseudo .jalr .jalrLink (linkingRegister linkRegister)] :=
    rfl
  rw [← Alias.canonicalize_filter, own]
  cases returns : returning operands <;>
    cases jumps : linkingRegister zeroRegister operands <;>
    cases links : linkingRegister linkRegister operands <;>
    simp [Alias.canonicalize, Alias.form?, pseudo, returns, jumps, links]

section Operands

variable (xlen : Xlen) (link base number : Nat) (offset : Int) (size : Nat)

theorem isRegister_operand :
    (Bank.integer.operand xlen link).isRegister number =
      decide (link = number) := by
  simp [Operand.isRegister, Bank.operand, Bank.register, Operand.register?]

theorem isConstant_signed (value : Int) :
    (Operand.signed offset size).isConstant value =
      decide (offset = value) := by
  simp [Operand.isConstant, Operand.signed, Operand.immediateValue?]

/-- A jump within reach is named by what it links. -/
theorem canonicalize_jal_operands (address : Address) :
    Alias.canonicalize pseudos
        ⟨Opcode.jal.id,
          [Bank.integer.operand xlen link, targetAt address offset]⟩ =
      if link = zeroRegister then
        ⟨Opcode.j.id, [targetAt address offset]⟩
      else if link = linkRegister then
        ⟨Opcode.jalLink.id, [targetAt address offset]⟩
      else
        ⟨Opcode.jal.id,
          [Bank.integer.operand xlen link, targetAt address offset]⟩ := by
  simp only [canonicalize_jal, linking, isRegister_operand,
    decide_eq_true_eq]
  by_cases jumps : link = zeroRegister
  · simp only [if_pos jumps]
  · by_cases links : link = linkRegister
    · simp only [if_neg jumps, if_pos links]
    · simp only [if_neg jumps, if_neg links]

/-- A jump to a register is named by what it links, and from where. -/
theorem canonicalize_jalr_operands :
    Alias.canonicalize pseudos
        ⟨Opcode.jalr.id,
          [Bank.integer.operand xlen link, Bank.integer.operand xlen base,
            .signed offset size]⟩ =
      if offset = 0 ∧ link = zeroRegister then
        if base = linkRegister then ⟨Opcode.ret.id, []⟩
        else ⟨Opcode.jr.id, [Bank.integer.operand xlen base]⟩
      else if offset = 0 ∧ link = linkRegister then
        ⟨Opcode.jalrLink.id, [Bank.integer.operand xlen base]⟩
      else
        ⟨Opcode.jalr.id,
          [Bank.integer.operand xlen link, Bank.integer.operand xlen base,
            .signed offset size]⟩ := by
  simp only [canonicalize_jalr, returning, linkingRegister, keepOfThree,
    isRegister_operand, isConstant_signed, Bool.and_eq_true,
    decide_eq_true_eq]
  by_cases none : offset = 0
  · by_cases jumps : link = zeroRegister <;>
      by_cases returns : base = linkRegister <;>
      by_cases links : link = linkRegister <;>
      simp_all
  · simp [none]

end Operands

end MachineCode.RiscV
