import MachineCode.Engine
import MachineCode.Proofs.Alias
import MachineCode.Proofs.RiscV.Manual
import MachineCode.Proofs.RiscV.PseudoOperands
import MachineCode.RiscV.InstructionSet

/-!
# Instructions with wider registers

What RV64 makes of an instruction of RV32: the registers belong to RV64, and
the constant amounts of shifts have a field of six bits instead of five
(`widenedInstruction`). Neither shows in the text, in the flow of control, or
in the choice of a pseudo-instruction, so that the description of a wider form
is the description of the form, widened (`describe_widened`).
-/

namespace MachineCode.RiscV

/-- The register of RV64 in the place of a register of RV32. -/
def widenedRegister (register : Register) : Register :=
  if register.architecture = .riscV32 then atWidth .rv64 register
  else register

/-- The shifts of a whole register by a constant amount. -/
def constantShifts : List Opcode :=
  [.slli, .srli, .srai]

/-- Whether an opcode shifts a whole register by a constant amount. -/
def isConstantShift (opcode : Nat) : Bool :=
  constantShifts.any fun shift => shift.id = opcode

/-- An operand of an opcode, with wider registers and shift amounts. -/
def widenedOperand (opcode : Nat) : Operand → Operand
  | .register named => .register (widenedRegister named)
  | .memory reference =>
    .memory
      { reference with
        base := reference.base.map widenedRegister
        index := reference.index.map widenedRegister }
  | .immediate constant =>
    .immediate
      (if isConstantShift opcode then
        { constant with size := Xlen.rv64.shiftBits }
      else
        constant)
  | operand => operand

/-- The detail record of an opcode, with wider registers. -/
def widenedDetail (opcode : Nat) (detail : Detail) : Detail :=
  { detail.mapOperands (widenedOperand opcode) with
    implicitReads := detail.implicitReads.map widenedRegister
    implicitWrites := detail.implicitWrites.map widenedRegister }

/-- The instruction with wider registers and shift amounts. -/
def widenedInstruction (instruction : Instruction) : Instruction :=
  match instruction.opcode with
  | none => instruction
  | some opcode =>
    { instruction with
      operands := instruction.operands.map (widenedOperand opcode)
      detail := instruction.detail.map (widenedDetail opcode) }

/-! ## Registers and operands -/

/-- The names of registers do not tell their width. -/
@[simp]
theorem name_widenedRegister (register : Register) :
    (widenedRegister register).name = register.name := by
  rw [widenedRegister]
  split
  · next narrow =>
    rw [Register.name, Register.name, narrow]
    rfl
  · rfl

@[simp]
theorem id_widenedRegister (register : Register) :
    (widenedRegister register).id = register.id := by
  rw [widenedRegister]
  split <;> rfl

section Operands

variable (opcode : Nat)

@[simp]
theorem widenedOperand_operand (bank : Bank) (number : Nat) :
    widenedOperand opcode (bank.operand .rv32 number) =
      bank.operand .rv64 number := by
  cases bank <;> rfl

@[simp]
theorem widenedOperand_memoryAt
    (base : Nat)
    (displacement : Int)
    (size : Nat) :
    widenedOperand opcode (memoryAt .rv32 base displacement size) =
      memoryAt .rv64 base displacement size :=
  rfl

@[simp]
theorem widenedOperand_targetAt (address : Address) (offset : Int) :
    widenedOperand opcode (targetAt address offset) =
      targetAt address offset :=
  rfl

@[simp]
theorem widenedOperand_systemRegister (register : SystemRegister) :
    widenedOperand opcode (.systemRegister register) =
      .systemRegister register :=
  rfl

/-- A constant that is no shift amount is left alone. -/
theorem widenedOperand_immediate
    {opcode : Nat}
    (noShift : isConstantShift opcode = false)
    (constant : Immediate) :
    widenedOperand opcode (.immediate constant) = .immediate constant := by
  rw [widenedOperand, noShift]
  rfl

/-- A shift amount has as many bits as the wider registers ask for. -/
theorem widenedOperand_unsigned
    {opcode : Nat}
    (shift : isConstantShift opcode)
    (amount bits : Nat) :
    widenedOperand opcode (.unsigned amount bits) = .unsigned amount 6 := by
  rw [Operand.unsigned, widenedOperand, if_pos shift]
  rfl

@[simp]
theorem target?_widenedOperand (operand : Operand) :
    (widenedOperand opcode operand).target? = operand.target? := by
  cases operand <;> rfl

@[simp]
theorem immediateValue?_widenedOperand (operand : Operand) :
    (widenedOperand opcode operand).immediateValue? =
      operand.immediateValue? := by
  cases operand with
  | immediate constant =>
      rw [widenedOperand]
      split <;> rfl
  | _ => rfl

/-- Pseudo-instructions do not ask for widths. -/
theorem keepsTests_widened : KeepsTests (widenedOperand opcode) where
  isRegister_eq := by
    intro operand number
    cases operand with
    | register named =>
        simp [widenedOperand, Operand.isRegister, Operand.register?]
    | _ => rfl
  isConstant_eq := by
    intro operand value
    rw [Operand.isConstant, Operand.isConstant,
      immediateValue?_widenedOperand]
  isControl_eq := by
    intro operand number
    cases operand <;> rfl

end Operands

/-! ## Text -/

section Text

variable (options : Options) (opcode : Nat)

theorem referenceText_widened (reference : MemoryReference) :
    referenceText
        { reference with
          base := reference.base.map widenedRegister
          index := reference.index.map widenedRegister } =
      referenceText reference := by
  simp [referenceText, Function.comp_def]

/-- Widths are not written. -/
theorem operandText_widened (operand : Operand) :
    operandText options (widenedOperand opcode operand) =
      operandText options operand := by
  cases operand with
  | register named => exact name_widenedRegister named
  | memory reference => exact referenceText_widened reference
  | immediate constant =>
      rw [widenedOperand]
      split <;> rfl
  | _ => rfl

theorem upperText_widened (operand : Operand) :
    upperText options (widenedOperand opcode operand) =
      upperText options operand := by
  cases operand with
  | immediate constant =>
      rw [widenedOperand]
      split <;> rfl
  | register named => exact name_widenedRegister named
  | memory reference => exact referenceText_widened reference
  | _ => rfl

theorem fenceText_widened (operand : Operand) :
    fenceText (widenedOperand opcode operand) = fenceText operand := by
  rw [fenceText, fenceText, immediateValue?_widenedOperand]

theorem operandTextOf_widened (shown : Option Opcode) (operand : Operand) :
    operandTextOf shown options (widenedOperand opcode operand) =
      operandTextOf shown options operand := by
  unfold operandTextOf
  split
  · exact fenceText_widened opcode operand
  · exact upperText_widened options opcode operand
  · exact upperText_widened options opcode operand
  · exact upperText_widened options opcode operand
  · exact operandText_widened options opcode operand

theorem render_widened (form : Form) (specifics : Specifics) :
    render (form.mapOperands (widenedOperand opcode)) specifics options =
      render form specifics options := by
  rw [render, render, Form.mapOperands, List.map_map]
  have same :
      operandTextOf (Opcode.ofId? form.opcode) options ∘
          widenedOperand opcode =
        operandTextOf (Opcode.ofId? form.opcode) options :=
    funext fun operand => operandTextOf_widened options opcode _ operand
  rw [same]

end Text

/-! ## Descriptions -/

theorem flow_widened
    (opcode : Nat)
    (info : OpcodeInfo)
    (operands : List Operand)
    (specifics : Specifics)
    (address : Address)
    (size : Nat) :
    Engine.flow info (operands.map (widenedOperand opcode)) specifics address
        size =
      Engine.flow info operands specifics address size := by
  have same : Operand.target? ∘ widenedOperand opcode = Operand.target? :=
    funext fun operand => target?_widenedOperand opcode operand
  simp only [Engine.flow, List.findSome?_map, same]

theorem completeDetail_widened (opcode : Nat) (detail : Detail) :
    completeDetail .rv64 (detail.mapOperands (widenedOperand opcode)) =
      widenedDetail opcode (completeDetail .rv32 detail) := by
  rw [widenedDetail, completeDetail, completeDetail, Detail.mapOperands,
    Detail.mapOperands]
  simp only [List.map_map]
  rfl

/-- The wider form of an instruction is described as the instruction is. -/
theorem describe_widened
    (options : Options)
    (word : Word)
    (form : Form)
    (info : OpcodeInfo)
    (specifics : Specifics)
    (wantDetail : Bool) :
    Engine.describe ⟨isa .rv64, options⟩ word
        (form.mapOperands (widenedOperand form.opcode)) info specifics
        wantDetail =
      widenedInstruction
        (Engine.describe ⟨isa .rv32, options⟩ word form info specifics
          wantDetail) := by
  have rendered :
      (isa .rv64).render (form.mapOperands (widenedOperand form.opcode))
          specifics options =
        (isa .rv32).render form specifics options :=
    render_widened options form.opcode form specifics
  have detailed :
      (isa .rv64).completeDetail
          (info.detail (form.operands.map (widenedOperand form.opcode))
            specifics) =
        widenedDetail form.opcode
          ((isa .rv32).completeDetail (info.detail form.operands specifics)) :=
      by
    rw [OpcodeInfo.detail_mapOperands]
    exact completeDetail_widened form.opcode _
  simp only [Engine.describe, widenedInstruction, rendered]
  simp only [Form.mapOperands, flow_widened, detailed]
  cases wantDetail <;> rfl

/-! ## Pseudo-instructions -/

/-- No pseudo-instruction stands for a shift by a constant or is one. -/
theorem isConstantShift_of_mem :
    ∀ rule ∈ pseudos,
      isConstantShift rule.opcode = false ∧
        isConstantShift rule.preferred = false := by
  decide

theorem isConstantShift_canonicalize (form : Form) :
    isConstantShift (Alias.canonicalize pseudos form).opcode =
      isConstantShift form.opcode := by
  rcases Alias.canonicalize_eq_or_exists pseudos form with same | applied
  · rw [same]
  · rcases applied with ⟨rule, member, applies⟩
    rcases Alias.exists_of_form? applies with ⟨opcode, operands, -, given⟩
    rcases isConstantShift_of_mem rule member with ⟨long, short⟩
    rw [given, short, ← opcode, long]

theorem widenedOperand_eq
    {left right : Nat}
    (same : isConstantShift left = isConstantShift right) :
    widenedOperand left = widenedOperand right := by
  funext operand
  cases operand with
  | immediate constant => rw [widenedOperand, widenedOperand, same]
  | _ => rfl

/-- The preferred form of a wider form is the preferred form, widened. -/
theorem canonicalize_widened (form : Form) :
    Alias.canonicalize pseudos
        (form.mapOperands (widenedOperand form.opcode)) =
      (Alias.canonicalize pseudos form).mapOperands
        (widenedOperand (Alias.canonicalize pseudos form).opcode) := by
  rw [Alias.canonicalize_mapOperands
      (keepsTests_widened form.opcode).commutes_of_mem,
    widenedOperand_eq (isConstantShift_canonicalize form)]

/-- What is made of a wider raw instruction is the wider instruction. -/
theorem finishRaw_widened
    {options : Options}
    {word : Word}
    {raw : RawInstruction}
    {wantDetail : Bool}
    {narrow : Decoded}
    (finished :
      Engine.finishRaw ⟨isa .rv32, options⟩ word raw wantDetail =
        .ok narrow) :
    Engine.finishRaw ⟨isa .rv64, options⟩ word
        (raw.mapOperands (widenedOperand raw.opcode)) wantDetail =
      .ok
        { narrow with
          instruction := widenedInstruction narrow.instruction } := by
  have preferred :
      Alias.canonicalize (isa .rv64).aliases
          (raw.mapOperands (widenedOperand raw.opcode)).form =
        (Alias.canonicalize pseudos raw.form).mapOperands
          (widenedOperand (Alias.canonicalize pseudos raw.form).opcode) :=
    canonicalize_widened raw.form
  have sameInfo : (isa .rv64).info? = (isa .rv32).info? := rfl
  have sameRules : (isa .rv32).aliases = pseudos := rfl
  rw [Engine.finishRaw, preferred, sameInfo, Form.mapOperands]
  rw [Engine.finishRaw, sameRules] at finished
  dsimp only at finished ⊢
  cases found :
      (isa .rv32).info? (Alias.canonicalize pseudos raw.form).opcode with
  | none =>
      rw [found] at finished
      cases finished
  | some info =>
      rw [found] at finished
      cases finished
      rw [← describe_widened]
      rfl

end MachineCode.RiscV
