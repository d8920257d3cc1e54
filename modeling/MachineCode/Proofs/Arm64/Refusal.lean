import MachineCode.Arm64.InstructionSet
import MachineCode.Proofs.Arm64.Operands
import MachineCode.Proofs.Refusal

/-!
# Causes for which Arm64 operands are refused

Every number that an Arm64 word has room for names a register. What is left
to refuse are the reserved values of fields (`Format.refuses_read`).
-/

namespace MachineCode.Arm64

/-- Whether a read fails only for the causes that Arm64 words give. -/
abbrev Refuses {α : Type} (read : Read α) : Prop :=
  FailsOnly Architecture.arm64.mayRefuse read

section Formats

variable {word : Word} (four : word.size = 4)
include four

theorem refuses_general (wide : Bool) {start : Nat}
    (inside : start + 5 ≤ 32) :
    Refuses (readRegister (general wide) start word) :=
  .of_eq_ok (readRegister_general four wide inside)

theorem refuses_generalOf
    {data : Prop}
    [Decidable data]
    (wide : Bool)
    {start : Nat}
    (inside : start + 5 ≤ 32) :
    Refuses
      (readRegister (if data then general wide else generalOrStack wide) start
        word) :=
  .of_eq_ok (readRegister_generalOf four wide inside)

theorem refuses_base : Refuses (readBase word) :=
  .of_eq_ok (readBase_eq four)

/-! ## Formats with a constant -/

theorem refuses_readLogicalConstant :
    Refuses (readLogicalConstant word) := by
  refine .bind (.flag four (by decide)) fun wide => ?_
  refine .bind (.field four (by decide) (by decide)) fun operation => ?_
  refine .bind (.field four (by decide) (by decide)) fun n => ?_
  refine .bind (.field four (by decide) (by decide)) fun immr => ?_
  refine .bind (.field four (by decide) (by decide)) fun imms => ?_
  refine .bind (refuses_general four wide (by decide)) fun source => ?_
  refine .bind (refuses_generalOf four wide (by decide)) fun target => ?_
  refine .ite (.throw rfl) ?_
  split
  · exact .error rfl
  · exact .ok _

theorem refuses_readWideMove : Refuses (readWideMove word) :=
  .bind (.flag four (by decide)) fun wide =>
    .bind (.field four (by decide) (by decide)) fun _ =>
      .bind (.field four (by decide) (by decide)) fun _ =>
        .bind (refuses_general four wide (by decide)) fun _ =>
          .ite (.throw rfl) (.ok _)

theorem refuses_readBitfield : Refuses (readBitfield word) :=
  .bind (.flag four (by decide)) fun wide =>
    .bind (.flag four (by decide)) fun _ =>
      .bind (.field four (by decide) (by decide)) fun _ =>
        .bind (.field four (by decide) (by decide)) fun _ =>
          .bind (refuses_general four wide (by decide)) fun _ =>
            .bind (refuses_general four wide (by decide)) fun _ =>
              .ite (.throw rfl) (.ite (.throw rfl) (.ok _))

theorem refuses_readExtract : Refuses (readExtract word) :=
  .bind (.flag four (by decide)) fun wide =>
    .bind (.flag four (by decide)) fun _ =>
      .bind (refuses_general four wide (by decide)) fun _ =>
        .bind (.field four (by decide) (by decide)) fun _ =>
          .bind (refuses_general four wide (by decide)) fun _ =>
            .bind (refuses_general four wide (by decide)) fun _ =>
              .ite (.throw rfl) (.ite (.throw rfl) (.ok _))

/-! ## Formats of loads and stores -/

theorem refuses_readRegisterOffset :
    Refuses (readRegisterOffset word) := by
  refine .bind (.field four (by decide) (by decide)) fun size => ?_
  refine .bind (.field four (by decide) (by decide)) fun operation => ?_
  refine .bindField four (by decide) (by decide) fun index small => ?_
  refine .bind (.field four (by decide) (by decide)) fun option => ?_
  refine .bind (.flag four (by decide)) fun scaled => ?_
  refine .bind (refuses_base four) fun base => ?_
  refine .bind (refuses_general four _ (by decide)) fun data => ?_
  split
  · exact .error rfl
  · exact .bind (.of_eq_ok (find_general _ small)) fun _ => .ok _

theorem refuses_readPair : Refuses (readPair word) := by
  refine .bind (.field four (by decide) (by decide)) fun size => ?_
  refine .ite (.throw rfl) ?_
  refine .bind (.field four (by decide) (by decide)) fun mode => ?_
  refine .bind (.flag four (by decide)) fun load => ?_
  refine .bind
    (.of_eq_ok (signedField_eq_ok_of_size four (by decide) (by decide)))
    fun offset => ?_
  refine .bindField four (by decide) (by decide) fun second small => ?_
  refine .bindField four (by decide) (by decide) fun base smallBase => ?_
  refine .bindField four (by decide) (by decide) fun first smallFirst => ?_
  exact .bind (.of_eq_ok (find_generalOrStack true smallBase)) fun _ =>
    .bind (.of_eq_ok (find_general _ smallFirst)) fun _ =>
      .bind (.of_eq_ok (find_general _ small)) fun _ => .ok _

theorem refuses_readStructures (updates : Bool) :
    Refuses (readStructures updates word) := by
  refine .bind (.flag four (by decide)) fun whole => ?_
  refine .bindField four (by decide) (by decide) fun index small => ?_
  refine .bind (.field four (by decide) (by decide)) fun operation => ?_
  refine .bind (.field four (by decide) (by decide)) fun size => ?_
  refine .bind (refuses_base four) fun base => ?_
  refine .bind (.field four (by decide) (by decide)) fun first => ?_
  split
  · exact .error rfl
  · refine .bind (.of_eq_ok (consecutive_vectors ..)) fun list => ?_
    exact .ite
      (.bind (.of_eq_ok (updatingReference_eq _ _ small)) fun _ => .ok _)
      (.ok _)

/-! ## Formats with registers only -/

theorem refuses_readShifted (rotates : Bool) :
    Refuses (readShifted rotates word) :=
  .bind (.flag four (by decide)) fun wide =>
    .bind (.field four (by decide) (by decide)) fun _ =>
      .bindField four (by decide) (by decide) fun _ small =>
        .bind (.field four (by decide) (by decide)) fun _ =>
          .bind (refuses_general four wide (by decide)) fun _ =>
            .bind (refuses_general four wide (by decide)) fun _ =>
              .ite (.throw rfl) (.ite (.throw rfl)
                (.bind (.of_eq_ok (find_general wide small)) fun _ => .ok _))

theorem refuses_readPrecision : Refuses (readPrecision word) := by
  refine .bind (.field four (by decide) (by decide)) fun precision => ?_
  unfold floatsOfType
  split
  · exact .ok _
  · exact .ok _
  · exact .ok _
  · exact .error rfl

theorem refuses_float
    {file : RegisterFile}
    (found : readPrecision word = .ok file)
    {start : Nat}
    (inside : start + 5 ≤ 32) :
    Refuses (readRegister file start word) := by
  rw [readPrecision, field_eq_ok_of_size four (by decide) (by decide)]
    at found
  rcases exists_of_floatsOfType found with ⟨name, size, -, rfl⟩
  exact .of_eq_ok (readRegister_floats four name size inside)

theorem refuses_readFloatConstant : Refuses (readFloatConstant word) :=
  .bindOk (refuses_readPrecision four) fun _ found =>
    .bind (.field four (by decide) (by decide)) fun _ =>
      .bind (refuses_float four found (by decide)) fun _ => .ok _

theorem refuses_readFloat : Refuses (readFloat word) :=
  .bindOk (refuses_readPrecision four) fun _ found =>
    .bind (refuses_float four found (by decide)) fun _ =>
      .bind (refuses_float four found (by decide)) fun _ =>
        .bind (refuses_float four found (by decide)) fun _ => .ok _

/-- A word is refused only for the reserved value of a field. -/
theorem Format.refuses_read (format : Format) :
    Refuses (format.read word) := by
  cases format with
  | nearAddress => exact .of_eq_ok (readNearAddress_eq four)
  | addConstant => exact .of_eq_ok (readAddConstant_eq four)
  | logicalConstant => exact refuses_readLogicalConstant four
  | wideMove => exact refuses_readWideMove four
  | bitfield => exact refuses_readBitfield four
  | extract => exact refuses_readExtract four
  | branch => exact .of_eq_ok (readBranch_eq four)
  | conditionalBranch => exact .of_eq_ok (readConditionalBranch_eq four)
  | compareBranch => exact .of_eq_ok (readCompareBranch_eq four)
  | testBranch => exact .of_eq_ok (readTestBranch_eq four)
  | branchRegister => exact .of_eq_ok (readBranchRegister_eq four)
  | bare => exact .ok _
  | exception | hint =>
      exact .of_eq_ok (readCode_eq four (by decide) (by decide))
  | fromSystem => exact .of_eq_ok (readFromSystem_eq four)
  | toSystem => exact .of_eq_ok (readToSystem_eq four)
  | literal => exact .of_eq_ok (readLiteral_eq four)
  | pair => exact refuses_readPair four
  | unsignedOffset => exact .of_eq_ok (readUnsignedOffset_eq four)
  | indexed => exact .of_eq_ok (readIndexed_eq four)
  | registerOffset => exact refuses_readRegisterOffset four
  | exclusive => exact .of_eq_ok (readExclusive_eq four)
  | exclusiveStore => exact .of_eq_ok (readExclusiveStore_eq four)
  | structures | structuresUpdating => exact refuses_readStructures four _
  | logicalRegister | addRegister => exact refuses_readShifted four _
  | select => exact .of_eq_ok (readSelect_eq four)
  | twoSources | threeSources => exact .of_eq_ok (readSources_eq four _)
  | floatConstant => exact refuses_readFloatConstant four
  | floatArithmetic => exact refuses_readFloat four

end Formats

end MachineCode.Arm64
