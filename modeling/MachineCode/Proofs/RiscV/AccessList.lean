import MachineCode.Proofs.AccessList
import MachineCode.Proofs.RiscV.Touch
import MachineCode.Proofs.RiscV.UnambiguousText

/-!
# The access lists of RISC-V opcodes

The opcode of an instruction tells the kinds of its operands, in its preferred
form, too; registers, memory and control registers can be written. Every
opcode has an access for each of its kinds (`isWithin_shape`). The names of
the integer and the floating-point registers are all different.
-/

namespace MachineCode.RiscV

/-! ## Names -/

theorem Bank.name_ne_unknown (xlen : Xlen) (bank : Bank) :
    ∀ number < 32,
      (bank.register xlen number).name ≠ Register.unknownName := by
  cases xlen <;> cases bank <;> decide

namespace Xlen.Owns

variable {xlen : Xlen} {left right register : Register}

/-- An integer register has the width of the instruction set. -/
theorem size_eq
    (owned : xlen.Owns register)
    (isGeneral : register.kind = .general) :
    register.size = xlen.bits := by
  rcases owned with ⟨bank, number, -, rfl⟩
  cases bank with
  | integer => rfl
  | floating => cases isGeneral

theorem name_ne_unknown (owned : xlen.Owns register) :
    register.name ≠ Register.unknownName := by
  rcases owned with ⟨bank, number, small, rfl⟩
  exact bank.name_ne_unknown xlen number small

end Xlen.Owns

/-! ## Kinds of operands -/

/-- What an opcode may at most do to an operand of the kind. -/
def Kind.limit : Kind → Access
  | .register _ | .memory _ | .control => .readWrite
  | .signed _ | .unsigned _ | .target => .read

/-- Operands suit an opcode that does no more than their kinds allow. -/
theorem suits_of_has
    {xlen : Xlen}
    {address : Address}
    {kinds : List Kind}
    {operands : List Operand}
    (has : List.Forall₂ (Kind.Has xlen address) kinds operands) :
    Suits xlen.Owns (kinds.map Kind.limit) operands := by
  induction has with
  | nil => exact .done _
  | cons first _ induction =>
      cases first with
      | @register bank number small =>
          exact .destination ⟨bank, number, small, rfl⟩ induction
      | @memory size base displacement small =>
          exact .location rfl
            (List.forall_mem_singleton.mpr ⟨.integer, base, small, rfl⟩)
            induction
      | control number =>
          exact .location rfl (List.forall_mem_nil _) induction
      | signed | unsigned | target => exact .value rfl induction

/-- Whether an opcode does no more than the kinds of its operands allow. -/
def Opcode.isWithin (xlen : Xlen) (opcode : Opcode) : Bool :=
  (opcode.shape? xlen).all fun shape =>
    Access.listWithin opcode.info.access (shape.kinds.map Kind.limit)

theorem isWithin_shape (xlen : Xlen) :
    ∀ number < Opcode.count, (Opcode.ofNat number).isWithin xlen := by
  cases xlen <;> decide +kernel

/-- The only register that is touched without being named. -/
theorem Opcode.eq_returnAddress_of_mem
    (opcode : Opcode)
    {register : Register}
    (member :
      register ∈ opcode.info.implicitReads ++ opcode.info.implicitWrites) :
    register = returnAddress := by
  have listed : register ∈ [returnAddress] := by
    revert register
    rw [← List.subset_def]
    cases opcode <;> decide
  exact List.mem_singleton.mp listed

/-- A decoded instruction is described by its opcode. -/
theorem exists_isDescribed
    {xlen : Xlen}
    {options : Options}
    {word : Word}
    {decoded : Decoded}
    (success :
      Engine.decodeWord ⟨isa xlen, options⟩ word true = .ok decoded) :
    ∃ info detail,
      decoded.instruction.IsDescribed (isa xlen) xlen.Owns info detail := by
  rcases exists_admits_of_decodeWord success with
    ⟨opcode, operands, specifics, shape, shaped, admits, described⟩
  have within := isWithin_shape xlen opcode.id opcode.id_lt_count
  rw [Opcode.ofNat_id, Opcode.isWithin, shaped, Option.all_some] at within
  refine ⟨opcode.info, opcode.detail xlen operands specifics, ?_⟩
  rw [described]
  exact
    { opcode_eq := by simp [Engine.describe, isa]
      detail_eq := rfl
      operands_eq := rfl
      suits := (suits_of_has admits.operands).of_listWithin within
      owns_unnamed := by
        rcases admits.rounding with ⟨mode, rfl, -⟩
        intro register member
        have implicit :
            register ∈
              (opcode.info.implicitReads ++ opcode.info.implicitWrites).map
                (atWidth xlen) := by
          rw [List.map_append]
          exact member
        rcases List.mem_map.mp implicit with ⟨listed, touched, rfl⟩
        cases opcode.eq_returnAddress_of_mem touched
        exact ⟨.integer, linkRegister, by decide, rfl⟩ }

end MachineCode.RiscV
