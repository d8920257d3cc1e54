import MachineCode.C64x.InstructionSet
import MachineCode.Proofs.Access
import MachineCode.Proofs.Alias
import MachineCode.Proofs.Table.Decoding

/-!
# The registers that a C64x instruction touches

The idioms leave out constants, which touch nothing. The only exception is
`zero`: the difference of a register from itself does not depend on the
register, so the idiom no longer reads it (`cancelled`).
-/

namespace MachineCode.C64x

open AccessedOperand OpcodeInfo

section Reductions

variable
  {register : Register}
  {operands reduced : List Operand}
  {first second : Access}

/-- The registers that a spelling cancels. -/
def cancelledBy (spelling : Nat) (operands : List Operand) : List Register :=
  if spelling = Opcode.zero.id then
    (operands.head?.bind Operand.register?).toList
  else
    []

/-- The registers that the preferred form of an instruction cancels. -/
def cancelled (raw : Form) : List Register :=
  cancelledBy (Alias.canonicalize idioms raw).opcode raw.operands

theorem cancelledBy_of_ne
    {spelling : Nat}
    (other : spelling ≠ Opcode.zero.id)
    (operands : List Operand) :
    cancelledBy spelling operands = [] :=
  if_neg other

/-- Both sources are the register that is cancelled. -/
theorem accessToAll_zeroOf
    (reduces : zeroOf operands = some reduced) :
    accessToAll register (accessOperands operands [.read, .read, first]) =
      Access.join
        ⟨register.coveredBy (cancelledBy Opcode.zero.id operands), false⟩
        (accessToAll register (accessOperands reduced [first])) := by
  unfold zeroOf at reduces
  split at reduces
  · next source other destination =>
    split at reduces
    · next same =>
      cases reduces
      cases same
      have source_read :
          accessTo register ⟨.register source, .read⟩ =
            ⟨register.coveredBy [source], false⟩ :=
        rfl
      simp only [accessOperands, accessToAll, Access.join_join_self,
        source_read]
      rfl
    · cases reduces
  · cases reduces

/-- The zero that is added touches nothing, on either side. -/
theorem accessToAll_moveOf
    (reduces : moveOf operands = some reduced) :
    accessToAll register (accessOperands reduced [first, second]) =
      accessToAll register
        (accessOperands operands [first, first, second]) := by
  unfold moveOf at reduces
  split at reduces
  · next left right destination =>
    split at reduces
    · next zero =>
      cases reduces
      rw [Bool.and_eq_true] at zero
      simp only [accessOperands, accessToAll, accessTo_constant zero.1,
        Access.none_join]
    · split at reduces
      · next zero =>
        cases reduces
        rw [Bool.and_eq_true] at zero
        simp only [accessOperands, accessToAll, accessTo_constant zero.1,
          Access.none_join]
      · cases reduces
  · cases reduces

theorem accessToAll_afterConstant
    {value : Int}
    (reduces : afterConstant value operands = some reduced) :
    accessToAll register (accessOperands reduced [first, second]) =
      accessToAll register
        (accessOperands operands [first, first, second]) := by
  unfold afterConstant at reduces
  split at reduces
  · next constant source destination =>
    split at reduces
    · next isConstant =>
      cases reduces
      simp only [accessOperands, accessToAll, accessTo_constant isConstant,
        Access.none_join]
    · cases reduces
  · cases reduces

theorem accessToAll_singleCycle
    (reduces : singleCycle operands = some reduced) :
    accessToAll register (accessOperands reduced []) =
      accessToAll register (accessOperands operands [first]) := by
  unfold singleCycle at reduces
  split at reduces
  · next cycles =>
    split at reduces
    · next single =>
      cases reduces
      simp only [accessOperands, accessToAll, accessTo_constant single,
        Access.none_join]
    · cases reduces
  · cases reduces

end Reductions

/-! ## All idioms -/

/-- Whether a rule only cancels what its spelling cancels. -/
def KeepsAccess (rule : Alias) : Prop :=
  ∃ long short : Opcode,
    rule.opcode = long.id ∧ rule.preferred = short.id ∧
      ∀ {register : Register} {operands reduced : List Operand},
        rule.reduce operands = some reduced →
          ∀ specifics,
            (long.info.detail operands specifics).accessTo register =
              Access.join
                ⟨register.coveredBy (cancelledBy short.id operands), false⟩
                ((short.info.detail reduced specifics).accessTo register)

/-- An idiom that cancels nothing. -/
theorem keepsAccess_idiom
    {long short : Opcode}
    {reduce : List Operand → Option (List Operand)}
    (other : short.id ≠ Opcode.zero.id)
    (implicit : short.info.SameImplicit long.info)
    (same :
      ∀ {register : Register} {operands reduced : List Operand},
        reduce operands = some reduced →
          accessToAll register (accessOperands reduced short.info.access) =
            accessToAll register (accessOperands operands long.info.access)) :
    KeepsAccess (idiom long short reduce) := by
  refine ⟨long, short, rfl, rfl, ?_⟩
  intro register operands reduced reduces specifics
  rw [cancelledBy_of_ne other,
    implicit.accessTo_detail (same reduces) specifics]
  exact (Access.none_join _).symm

theorem keepsAccess_zero : KeepsAccess (idiom .sub .zero zeroOf) := by
  refine ⟨.sub, .zero, rfl, rfl, ?_⟩
  intro register operands reduced reduces
  have implicit :
      Opcode.zero.info.SameImplicit Opcode.sub.info :=
    ⟨rfl, rfl⟩
  exact implicit.accessTo_detail_join (accessToAll_zeroOf reduces)

theorem keepsAccess_of_mem : ∀ rule ∈ idioms, KeepsAccess rule := by
  simp only [idioms, List.forall_mem_cons]
  exact
    ⟨keepsAccess_zero,
      keepsAccess_idiom (by decide) ⟨rfl, rfl⟩ accessToAll_moveOf,
      keepsAccess_idiom (by decide) ⟨rfl, rfl⟩ accessToAll_afterConstant,
      keepsAccess_idiom (by decide) ⟨rfl, rfl⟩ accessToAll_afterConstant,
      keepsAccess_idiom (by decide) ⟨rfl, rfl⟩ accessToAll_singleCycle,
      by simp⟩

/-- The last corrections to a detail record concern no register. -/
theorem accessTo_completeDetail (register : Register) (detail : Detail) :
    (completeDetail detail).accessTo register = detail.accessTo register := by
  rw [Detail.accessTo_eq, Detail.accessTo_eq, completeDetail]
  split <;> rfl

theorem detailOf?_id
    (opcode : Opcode)
    (operands : List Operand)
    (specifics : Specifics) :
    isa.detailOf? ⟨opcode.id, operands⟩ specifics =
      some (completeDetail (opcode.info.detail operands specifics)) := by
  simp [Isa.detailOf?, isa]

/-- Whether a number is that of an opcode, but not of `zero`. -/
def isNamed (number _format : Nat) : Bool :=
  (Opcode.ofId? number).any fun opcode =>
    opcode.id = number && number ≠ Opcode.zero.id

theorem isNamed_of_mem : ∀ entry ∈ table.entries, entry.fits isNamed := by
  decide +kernel

/--
What has been decoded is described, and so is its preferred form; both touch
the same registers, but for the register that the preferred form cancels.
-/
theorem exists_details
    {word : Word}
    {features : Features}
    {raw : RawInstruction}
    (decoded : isa.run table word features = .ok raw) :
    ∃ rawDetail detail,
      isa.detailOf? raw.form raw.specifics = some rawDetail ∧
        isa.detailOf? (Alias.canonicalize isa.aliases raw.form)
            raw.specifics =
          some detail ∧
        ∀ register : Register,
          rawDetail.accessTo register =
            Access.join ⟨register.coveredBy (cancelled raw.form), false⟩
              (detail.accessTo register) := by
  rcases Isa.exists_fit_of_run isNamed_of_mem decoded with ⟨_, _, named, -⟩
  rcases (Option.any_eq_true _ _).mp named with ⟨opcode, -, fits⟩
  rw [Bool.and_eq_true, decide_eq_true_eq, decide_eq_true_eq] at fits
  rcases fits with ⟨same, notZero⟩
  have isForm : raw.form = ⟨opcode.id, raw.operands⟩ := by
    rw [RawInstruction.form, same]
  rcases Alias.canonicalize_eq_or_exists idioms raw.form with
    unchanged | applied
  · rw [cancelled, show isa.aliases = idioms from rfl, unchanged, isForm,
      detailOf?_id, cancelledBy_of_ne (same ▸ notZero)]
    exact ⟨_, _, rfl, rfl, fun _ => (Access.none_join _).symm⟩
  · rcases applied with ⟨rule, listed, applies⟩
    rcases Alias.exists_of_form? applies with
      ⟨isRaw, reduced, reduces, result⟩
    rcases keepsAccess_of_mem rule listed with
      ⟨long, short, isLong, isShort, keeps⟩
    have sameLong : long.id = raw.opcode := isLong.symm.trans isRaw
    rw [cancelled, show isa.aliases = idioms from rfl, result, isShort,
      RawInstruction.form, ← sameLong, detailOf?_id, detailOf?_id]
    refine ⟨_, _, rfl, rfl, ?_⟩
    intro register
    rw [accessTo_completeDetail, accessTo_completeDetail]
    exact keeps reduces raw.specifics

end MachineCode.C64x
