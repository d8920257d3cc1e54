import MachineCode.Proofs.OperandChange
import MachineCode.RiscV.Pseudo

/-!
# Pseudo-instructions of changed operands

A rule for a pseudo-instruction asks whether an operand is a certain register,
constant or control register, and nothing else. Hence it commutes with every
change of operands that keeps the answers (`KeepsTests.commutes_of_mem`).
-/

namespace MachineCode.RiscV

/-- A change of operands that keeps what pseudo-instructions ask for. -/
structure KeepsTests (change : Operand → Operand) : Prop where
  isRegister_eq :
    ∀ operand number,
      (change operand).isRegister number = operand.isRegister number
  isConstant_eq :
    ∀ operand value,
      (change operand).isConstant value = operand.isConstant value
  isControl_eq :
    ∀ operand number,
      isControl (change operand) number = isControl operand number

namespace KeepsTests

variable
  {change : Operand → Operand}
  (keeps : KeepsTests change)

theorem commutes_keepOfThree
    {test : Operand → Operand → Operand → Bool}
    {kept : Operand → Operand → Operand → List Operand}
    (sameTest :
      ∀ first second third,
        test (change first) (change second) (change third) =
          test first second third)
    (sameKept :
      ∀ first second third,
        kept (change first) (change second) (change third) =
          (kept first second third).map change) :
    Alias.CommutesWith change (keepOfThree test kept) := by
  intro operands
  match operands with
  | [first, second, third] =>
      exact Alias.commutes_ite (sameTest ..) (sameKept ..)
  | [] | [_] | [_, _] | _ :: _ :: _ :: _ :: _ => rfl

include keeps

theorem commutes_nothing : Alias.CommutesWith change nothing := by
  apply commutes_keepOfThree
  · intro first second third
    rw [keeps.isRegister_eq, keeps.isRegister_eq, keeps.isConstant_eq]
  · intro _ _ _
    rfl

theorem commutes_withoutConstant (value : Int) :
    Alias.CommutesWith change (withoutConstant value) :=
  commutes_keepOfThree (fun _ _ third => keeps.isConstant_eq third value)
    fun _ _ _ => rfl

theorem commutes_withoutZeroFirst :
    Alias.CommutesWith change withoutZeroFirst :=
  commutes_keepOfThree (fun first _ _ => keeps.isRegister_eq first _)
    fun _ _ _ => rfl

theorem commutes_withoutZeroSecond :
    Alias.CommutesWith change withoutZeroSecond :=
  commutes_keepOfThree (fun _ second _ => keeps.isRegister_eq second _)
    fun _ _ _ => rfl

theorem commutes_withoutZeroThird :
    Alias.CommutesWith change withoutZeroThird :=
  commutes_keepOfThree (fun _ _ third => keeps.isRegister_eq third _)
    fun _ _ _ => rfl

theorem commutes_linking (number : Nat) :
    Alias.CommutesWith change (linking number) := by
  intro operands
  match operands with
  | [link, target] =>
      exact Alias.commutes_ite (keeps.isRegister_eq link number) rfl
  | [] | [_] | _ :: _ :: _ :: _ => rfl

theorem commutes_returning : Alias.CommutesWith change returning := by
  apply commutes_keepOfThree
  · intro first second third
    rw [keeps.isRegister_eq, keeps.isRegister_eq, keeps.isConstant_eq]
  · intro _ _ _
    rfl

theorem commutes_linkingRegister (number : Nat) :
    Alias.CommutesWith change (linkingRegister number) := by
  apply commutes_keepOfThree
  · intro first second third
    rw [keeps.isRegister_eq, keeps.isConstant_eq]
  · intro _ _ _
    rfl

theorem commutes_readingCounter (number : Nat) :
    Alias.CommutesWith change (readingCounter number) := by
  apply commutes_keepOfThree
  · intro first second third
    rw [keeps.isControl_eq, keeps.isRegister_eq]
  · intro _ _ _
    rfl

theorem commutes_orderingAll : Alias.CommutesWith change orderingAll := by
  intro operands
  match operands with
  | [before, after] =>
      refine Alias.commutes_ite ?_ rfl
      rw [keeps.isConstant_eq, keeps.isConstant_eq]
  | [] | [_] | _ :: _ :: _ :: _ => rfl

/-- No rule for a pseudo-instruction notices the change. -/
theorem commutes_of_mem :
    ∀ rule ∈ pseudos, Alias.CommutesWith change rule.reduce := by
  simp only [pseudos, pseudo, List.forall_mem_cons]
  exact
    ⟨keeps.commutes_nothing,
      keeps.commutes_withoutZeroSecond,
      keeps.commutes_withoutConstant 0,
      keeps.commutes_withoutConstant (-1),
      keeps.commutes_withoutZeroSecond,
      keeps.commutes_withoutZeroSecond,
      keeps.commutes_withoutConstant 0,
      keeps.commutes_withoutConstant 1,
      keeps.commutes_withoutZeroSecond,
      keeps.commutes_withoutZeroThird,
      keeps.commutes_withoutZeroSecond,
      keeps.commutes_withoutZeroSecond,
      keeps.commutes_withoutZeroSecond,
      keeps.commutes_withoutZeroFirst,
      keeps.commutes_withoutZeroSecond,
      keeps.commutes_withoutZeroSecond,
      keeps.commutes_withoutZeroFirst,
      keeps.commutes_linking zeroRegister,
      keeps.commutes_linking linkRegister,
      keeps.commutes_returning,
      keeps.commutes_linkingRegister zeroRegister,
      keeps.commutes_linkingRegister linkRegister,
      keeps.commutes_readingCounter cycleCounter,
      keeps.commutes_readingCounter timeCounter,
      keeps.commutes_readingCounter retiredCounter,
      keeps.commutes_withoutZeroThird,
      keeps.commutes_withoutZeroFirst,
      keeps.commutes_withoutZeroFirst,
      keeps.commutes_withoutZeroFirst,
      keeps.commutes_withoutZeroFirst,
      keeps.commutes_withoutZeroFirst,
      keeps.commutes_withoutZeroFirst,
      keeps.commutes_orderingAll,
      by simp⟩

end KeepsTests

end MachineCode.RiscV
