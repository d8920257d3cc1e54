import MachineCode.Engine
import MachineCode.Proofs.Detail

/-!
# How a detail record touches a register

A record reads the storage of a register, writes it, does both or does
neither. That is the join of what each operand does and of what is done
without naming the register (`Detail.accessTo_eq`), so two records are
compared operand by operand: an operand that names no register does nothing,
and to read a register twice is to read it.
-/

namespace MachineCode

namespace Access

/-- What is done by one or the other. -/
def join (left right : Access) : Access :=
  ⟨left.reads || right.reads, left.writes || right.writes⟩

@[simp]
theorem none_join (access : Access) : none.join access = access := by
  simp [join, none]

@[simp]
theorem join_none (access : Access) : access.join none = access := by
  simp [join, none]

@[simp]
theorem join_self (access : Access) : access.join access = access := by
  simp [join]

theorem join_assoc (first second third : Access) :
    (first.join second).join third = first.join (second.join third) := by
  simp [join, Bool.or_assoc]

/-- To do something twice is to do it. -/
theorem join_join_self (access rest : Access) :
    access.join (access.join rest) = access.join rest := by
  rw [← join_assoc, join_self]

end Access

namespace AccessedOperand

/-- How an operand touches the storage of a register. -/
def accessTo (register : Register) (accessed : AccessedOperand) : Access :=
  ⟨register.coveredBy accessed.reads, register.coveredBy accessed.writes⟩

/-- How several operands touch the storage of a register. -/
def accessToAll (register : Register) : List AccessedOperand → Access
  | [] => .none
  | accessed :: rest =>
    (accessed.accessTo register).join (accessToAll register rest)

theorem accessToAll_eq
    (register : Register)
    (operands : List AccessedOperand) :
    accessToAll register operands =
      ⟨register.coveredBy (operands.flatMap reads),
        register.coveredBy (operands.flatMap writes)⟩ := by
  induction operands with
  | nil => rfl
  | cons accessed operands induction =>
      rw [accessToAll, induction, accessTo, List.flatMap_cons,
        List.flatMap_cons, Register.coveredBy_append,
        Register.coveredBy_append]
      rfl

/-- Operands that name no register touch none. -/
theorem accessTo_eq_none
    {register : Register}
    {operand : Operand}
    (notMemory : operand.kind ≠ .memory)
    (silent : register.coveredBy operand.directRegisters = false)
    (access : Access) :
    accessTo register ⟨operand, access⟩ = .none := by
  have read :
      register.coveredBy (reads ⟨operand, access⟩) = false := by
    cases operand with
    | memory => exact absurd rfl notMemory
    | _ =>
        simp only [reads]
        split
        · exact silent
        · rfl
  have wrote :
      register.coveredBy (writes ⟨operand, access⟩) = false := by
    cases operand with
    | memory => exact absurd rfl notMemory
    | _ =>
        simp only [writes]
        split
        · exact silent
        · rfl
  rw [accessTo, read, wrote]
  rfl

/-- A constant touches no register. -/
theorem accessTo_constant
    {operand : Operand}
    {value : Int}
    (constant : operand.isConstant value)
    (register : Register)
    (access : Access) :
    accessTo register ⟨operand, access⟩ = .none := by
  cases operand with
  | immediate => exact accessTo_eq_none (by simp [Operand.kind]) rfl access
  | _ => cases constant

@[simp]
theorem accessTo_immediate
    (register : Register)
    (immediate : Immediate)
    (access : Access) :
    accessTo register ⟨.immediate immediate, access⟩ = .none :=
  accessTo_eq_none (by simp [Operand.kind]) rfl access

@[simp]
theorem accessTo_shift
    (register : Register)
    (shift : Shift)
    (access : Access) :
    accessTo register ⟨.shift shift, access⟩ = .none :=
  accessTo_eq_none (by simp [Operand.kind]) rfl access

@[simp]
theorem accessTo_condition
    (register : Register)
    (condition : Condition)
    (access : Access) :
    accessTo register ⟨.condition condition, access⟩ = .none :=
  accessTo_eq_none (by simp [Operand.kind]) rfl access

/-- The register of one number does not touch that of another. -/
theorem accessTo_of_isRegister
    {register : Register}
    {number : Nat}
    (other : register.id ≠ number)
    {operand : Operand}
    (same : operand.isRegister number)
    (access : Access) :
    accessTo register ⟨operand, access⟩ = .none := by
  rw [Operand.isRegister, decide_eq_true_eq] at same
  cases operand with
  | register named =>
      rw [Operand.register?, Option.map_some, Option.some.injEq] at same
      refine accessTo_eq_none (by simp [Operand.kind]) ?_ access
      simp only [Operand.directRegisters, Register.coveredBy, List.any_cons,
        List.any_nil, Bool.or_false, Register.sameStorage, same]
      simp [Ne.symm other]
  | _ => cases same

/-- Registers of the same storage are touched in the same way. -/
theorem accessTo_sameStorage
    {left right : Register}
    (same : left.sameStorage right)
    (register : Register)
    (access : Access) :
    accessTo register ⟨.register left, access⟩ =
      accessTo register ⟨.register right, access⟩ := by
  have covered :
      register.coveredBy [left] = register.coveredBy [right] := by
    rw [Register.sameStorage_iff] at same
    simp [Register.coveredBy, Register.sameStorage, same.1, same.2]
  simp only [accessTo, reads, writes, Operand.directRegisters,
    apply_ite (Register.coveredBy register), covered]

/-- Operands that agree are touched in the same way. -/
theorem accessTo_of_agrees
    {left right : Operand}
    (agrees : left.agrees right)
    (register : Register)
    (access : Access) :
    accessTo register ⟨left, access⟩ = accessTo register ⟨right, access⟩ := by
  cases left with
  | float value =>
      cases right with
      | float =>
          rw [accessTo_eq_none (by simp [Operand.kind]) rfl,
            accessTo_eq_none (by simp [Operand.kind]) rfl]
      | _ => simp [Operand.agrees] at agrees
  | _ =>
      rw [Operand.agrees_iff_of_kind_ne_float (by simp [Operand.kind])]
        at agrees
      rw [agrees]

end AccessedOperand

namespace Detail

/-- How an instruction touches the storage of a register. -/
def accessTo (register : Register) (detail : Detail) : Access :=
  ⟨detail.readsRegister register, detail.writesRegister register⟩

/-- The operands and what is not named touch a register together. -/
theorem accessTo_eq (register : Register) (detail : Detail) :
    detail.accessTo register =
      (AccessedOperand.accessToAll register detail.operands).join
        ⟨register.coveredBy
            (detail.specifics.implicitReads ++ detail.implicitReads),
          register.coveredBy detail.implicitWrites⟩ := by
  rw [accessTo, readsRegister, writesRegister, reads, writes,
    Register.coveredBy_distinct, Register.coveredBy_distinct, readMentions,
    writeMentions, AccessedOperand.accessToAll_eq, Access.join,
    Register.coveredBy_append, Register.coveredBy_append,
    Register.coveredBy_append, Register.coveredBy_append, Bool.or_assoc]

end Detail

namespace OpcodeInfo

/-- Whether opcodes touch the same registers without naming them. -/
def SameImplicit (short long : OpcodeInfo) : Prop :=
  short.implicitReads = long.implicitReads ∧
    short.implicitWrites = long.implicitWrites

section SameImplicit

variable
  {short long : OpcodeInfo}
  (implicit : short.SameImplicit long)
  {shorts longs : List Operand}
  {register : Register}
include implicit

/-- What the operands of such opcodes do more, the instructions do more. -/
theorem SameImplicit.accessTo_detail_join
    {more : Access}
    (touches :
      AccessedOperand.accessToAll register
          (accessOperands longs long.access) =
        more.join
          (AccessedOperand.accessToAll register
            (accessOperands shorts short.access)))
    (specifics : Specifics) :
    (long.detail longs specifics).accessTo register =
      more.join ((short.detail shorts specifics).accessTo register) := by
  rw [Detail.accessTo_eq, Detail.accessTo_eq]
  simp only [detail, touches, implicit.1, implicit.2, Access.join_assoc]

/-- Such opcodes touch a register in the same way if their operands do. -/
theorem SameImplicit.accessTo_detail
    (same :
      AccessedOperand.accessToAll register
          (accessOperands shorts short.access) =
        AccessedOperand.accessToAll register
          (accessOperands longs long.access))
    (specifics : Specifics) :
    (short.detail shorts specifics).accessTo register =
      (long.detail longs specifics).accessTo register := by
  rw [implicit.accessTo_detail_join (same.symm.trans (Access.none_join _).symm),
    Access.none_join]

end SameImplicit

end OpcodeInfo

/-! ## Records of forms -/

/-- The detail record of a form. -/
def Isa.detailOf? (isa : Isa) (form : Form) (specifics : Specifics) :
    Option Detail :=
  (isa.info? form.opcode).map fun info =>
    isa.completeDetail (info.detail form.operands specifics)

/-- An engine gives an instruction the record of its preferred form. -/
theorem Engine.exists_decodeWord
    {engine : Engine}
    {word : Word}
    {raw : RawInstruction}
    (decoded : engine.decodeRaw word = .ok raw)
    {detail : Detail}
    (described :
      engine.isa.detailOf?
          (Alias.canonicalize engine.isa.aliases raw.form) raw.specifics =
        some detail) :
    ∃ result,
      engine.decodeWord word true = .ok result ∧
        result.instruction.detail = some detail := by
  rcases Option.map_eq_some_iff.mp described with ⟨info, found, rfl⟩
  simp only [decodeWord, decoded, finishRaw, found, describe, ↓reduceIte]
  exact ⟨_, rfl, rfl⟩

end MachineCode
