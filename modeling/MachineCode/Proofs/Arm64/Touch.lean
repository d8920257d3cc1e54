import MachineCode.Proofs.Access
import MachineCode.Proofs.Arm64.Expansion

/-!
# The registers that an Arm64 instruction touches

The preferred form of an instruction touches the same registers, apart from
the zero register. The operands that a rule leaves out are zero registers,
constants or a register that is named beside them; a constant in place of
others touches nothing either. Only a return leaves out a register that holds
data: it reads the link register without naming it.
-/

namespace MachineCode.Arm64

open AccessedOperand OpcodeInfo

section Reductions

variable
  {register : Register}
  {operands reduced : List Operand}
  {first second third fourth : Access}
  {rest : List Access}

theorem accessToAll_stackMove
    (reduces : stackMove operands = some reduced) :
    accessToAll register (accessOperands reduced [first, second]) =
      accessToAll register
        (accessOperands operands (first :: second :: third :: rest)) := by
  rcases exists_of_stackMove reduces with
    ⟨destination, source, constant, zero, rfl, rfl⟩
  simp [accessOperands, accessToAll, accessTo_constant zero]

/-- The constants and the shift of a wide move touch nothing. -/
theorem accessToAll_wideMoveParts
    {destination : Operand}
    {constant place : Nat}
    (parts : wideMoveParts? operands = some (destination, constant, place))
    (value : Immediate) :
    accessToAll register
        (accessOperands [destination, .immediate value] [first, second]) =
      accessToAll register
        (accessOperands operands [first, third, fourth]) := by
  unfold wideMoveParts? at parts
  split at parts
  · cases parts
    simp [accessOperands, accessToAll]
  · cases parts
    simp [accessOperands, accessToAll]
  · cases parts

theorem accessToAll_wideMove
    (reduces : wideMove operands = some reduced) :
    accessToAll register (accessOperands reduced [first, second]) =
      accessToAll register
        (accessOperands operands [first, third, fourth]) := by
  rcases exists_of_wideMove reduces with ⟨_, _, _, parts, -, rfl⟩
  exact accessToAll_wideMoveParts parts _

theorem accessToAll_invertedMove
    (reduces : invertedMove operands = some reduced) :
    accessToAll register (accessOperands reduced [first, second]) =
      accessToAll register
        (accessOperands operands [first, third, fourth]) := by
  rcases exists_of_invertedMove reduces with ⟨_, _, _, parts, -, -, rfl⟩
  exact accessToAll_wideMoveParts parts _

/-- A narrower source is the same storage. -/
theorem accessToAll_extension
    {condition : Register → Bool}
    {highest : Nat}
    (reduces : Bitfield.extension condition highest operands = some reduced) :
    accessToAll register (accessOperands reduced [first, second]) =
      accessToAll register
        (accessOperands operands [first, second, third, fourth]) := by
  rcases Bitfield.exists_of_extension reduces with ⟨field, found, -, -, rfl⟩
  rcases Bitfield.exists_of_ofOperands? found with ⟨immr, imms, rfl⟩
  have same :
      ({ field.source with size := 32 } : Register).sameStorage
        field.source := by
    simp [Register.sameStorage]
  simp [accessOperands, accessToAll, accessTo_sameStorage same]

/-- Constants touch nothing, however many there are. -/
theorem accessToAll_smallConstants
    (register : Register)
    (constants : List Nat)
    (accesses : List Access) :
    accessToAll register
        (accessOperands (constants.map smallConstant) accesses) =
      .none := by
  induction constants generalizing accesses with
  | nil => rfl
  | cons constant constants induction =>
      cases accesses <;>
        simp [accessOperands, accessToAll, smallConstant, Operand.unsigned,
          induction]

theorem accessToAll_withConstants
    {condition : Bitfield → Bool}
    {constants : Bitfield → List Nat}
    (reduces :
      Bitfield.withConstants condition constants operands = some reduced) :
    accessToAll register
        (accessOperands reduced (first :: second :: rest)) =
      accessToAll register
        (accessOperands operands [first, second, third, fourth]) := by
  rcases Bitfield.exists_of_withConstants reduces with ⟨field, found, -, rfl⟩
  rcases Bitfield.exists_of_ofOperands? found with ⟨immr, imms, rfl⟩
  simp [accessOperands, accessToAll, accessToAll_smallConstants]

/-- To read a register twice is to read it. -/
theorem accessToAll_rotation
    (reduces : rotation operands = some reduced) :
    accessToAll register (accessOperands reduced [first, second, third]) =
      accessToAll register
        (accessOperands operands [first, second, second, third]) := by
  rcases exists_of_rotation reduces with
    ⟨destination, high, low, distance, agrees, rfl, rfl⟩
  simp only [accessOperands, accessToAll, ← accessTo_of_agrees agrees,
    Access.join_join_self]

theorem accessToAll_conditionalChange
    (reduces : conditionalChange operands = some reduced) :
    accessToAll register (accessOperands reduced [first, second, third]) =
      accessToAll register
        (accessOperands operands [first, second, second, third]) := by
  rcases exists_of_conditionalChange reduces with
    ⟨destination, chosen, other, condition, agrees, rfl, rfl⟩
  simp only [accessOperands, accessToAll, accessTo_condition,
    ← accessTo_of_agrees agrees, Access.join_join_self]

theorem accessToAll_hintOf
    {code : Int}
    (reduces : hintOf code operands = some reduced) :
    accessToAll register (accessOperands reduced []) =
      accessToAll register (accessOperands operands [first]) := by
  rcases exists_of_hintOf reduces with ⟨operand, constant, rfl, rfl⟩
  simp [accessOperands, accessToAll, accessTo_constant constant]

variable (counts : register.id ≠ zeroRegister)
include counts

theorem accessToAll_withoutDestination
    (reduces : withoutDestination operands = some reduced) :
    accessToAll register (accessOperands reduced rest) =
      accessToAll register (accessOperands operands (first :: rest)) := by
  rcases exists_of_withoutDestination reduces with ⟨destination, zero, rfl⟩
  rw [accessOperands, accessToAll, accessTo_of_isRegister counts zero,
    Access.none_join]

theorem accessToAll_withoutFirstSource
    (reduces : withoutFirstSource operands = some reduced) :
    accessToAll register (accessOperands reduced (first :: rest)) =
      accessToAll register
        (accessOperands operands (first :: second :: rest)) := by
  rcases exists_of_withoutFirstSource reduces with
    ⟨destination, source, others, zero, rfl, rfl⟩
  simp only [accessOperands, accessToAll, accessTo_of_isRegister counts zero,
    Access.none_join]

theorem accessToAll_withoutAddend
    (reduces : withoutAddend operands = some reduced) :
    accessToAll register (accessOperands reduced [first, second, third]) =
      accessToAll register
        (accessOperands operands [first, second, third, fourth]) := by
  rcases exists_of_withoutAddend reduces with
    ⟨destination, factor, other, addend, zero, rfl, rfl⟩
  simp only [accessOperands, accessToAll, accessTo_of_isRegister counts zero,
    Access.none_join]

theorem accessToAll_conditionalSet
    (reduces : conditionalSet operands = some reduced) :
    accessToAll register (accessOperands reduced [first, second]) =
      accessToAll register
        (accessOperands operands [first, second, third, fourth]) := by
  rcases exists_of_conditionalSet reduces with
    ⟨destination, chosen, other, condition, chosenZero, otherZero, rfl, rfl⟩
  simp only [accessOperands, accessToAll, accessTo_condition,
    accessTo_of_isRegister counts chosenZero,
    accessTo_of_isRegister counts otherZero, Access.none_join]

end Reductions

/-! ## All preferred forms -/

/-- Whether operands have the shape that the format of an opcode gives. -/
def Opcode.Takes (opcode : Opcode) (operands : List Operand) : Prop :=
  ∀ format, opcode.format? = some format → format.Gives operands

/--
Whether the preferred form of a rule touches the same registers, apart from
the zero register.
-/
def KeepsAccess (rule : Alias) : Prop :=
  ∃ long short : Opcode,
    rule.opcode = long.id ∧ rule.preferred = short.id ∧
      ∀ {register : Register} {operands reduced : List Operand},
        register.id ≠ zeroRegister → long.Takes operands →
          rule.reduce operands = some reduced →
          ∀ specifics,
            (short.info.detail reduced specifics).accessTo register =
              (long.info.detail operands specifics).accessTo register

section Rules

variable
  {long short : Opcode}
  {reduce : List Operand → Option (List Operand)}

/-- Opcodes that touch the same registers without naming them. -/
theorem keepsAccess_preferred
    (implicit : short.info.SameImplicit long.info)
    (same :
      ∀ {register : Register} {operands reduced : List Operand},
        register.id ≠ zeroRegister → reduce operands = some reduced →
          accessToAll register (accessOperands reduced short.info.access) =
            accessToAll register (accessOperands operands long.info.access)) :
    KeepsAccess (preferred long short reduce) :=
  ⟨long, short, rfl, rfl, fun counts _ reduces specifics =>
    implicit.accessTo_detail (same counts reduces) specifics⟩

theorem keepsAccess_withoutDestination
    {first : Access}
    (implicit : short.info.SameImplicit long.info)
    (sameAccess : long.info.access = first :: short.info.access) :
    KeepsAccess (preferred long short withoutDestination) := by
  refine keepsAccess_preferred implicit ?_
  intro register operands reduced counts reduces
  rw [sameAccess]
  exact accessToAll_withoutDestination counts reduces

/-- The rules that leave out a first source that is zero. -/
theorem keepsAccess_fromZero
    {first second : Access}
    {rest : List Access}
    (implicit : short.info.SameImplicit long.info)
    (longAccess : long.info.access = first :: second :: rest)
    (shortAccess : short.info.access = first :: rest)
    (leavesOut :
      ∀ {operands reduced : List Operand},
        reduce operands = some reduced →
          withoutFirstSource operands = some reduced) :
    KeepsAccess (preferred long short reduce) := by
  refine keepsAccess_preferred implicit ?_
  intro register operands reduced counts reduces
  rw [longAccess, shortAccess]
  exact accessToAll_withoutFirstSource counts (leavesOut reduces)

theorem keepsAccess_extension
    {condition : Register → Bool}
    {highest : Nat}
    (implicit : short.info.SameImplicit long.info)
    (longAccess : long.info.access = [.write, .read, .read, .read])
    (shortAccess : short.info.access = [.write, .read]) :
    KeepsAccess
      (preferred long short (Bitfield.extension condition highest)) := by
  refine keepsAccess_preferred implicit ?_
  intro register operands reduced _ reduces
  rw [longAccess, shortAccess]
  exact accessToAll_extension reduces

theorem keepsAccess_withConstants
    {condition : Bitfield → Bool}
    {constants : Bitfield → List Nat}
    {first second third fourth : Access}
    {rest : List Access}
    (implicit : short.info.SameImplicit long.info)
    (longAccess : long.info.access = [first, second, third, fourth])
    (shortAccess : short.info.access = first :: second :: rest) :
    KeepsAccess
      (preferred long short (Bitfield.withConstants condition constants)) := by
  refine keepsAccess_preferred implicit ?_
  intro register operands reduced _ reduces
  rw [longAccess, shortAccess]
  exact accessToAll_withConstants reduces

theorem keepsAccess_conditionalSet
    (implicit : short.info.SameImplicit long.info)
    (longAccess : long.info.access = [.write, .read, .read, .read])
    (shortAccess : short.info.access = [.write, .read]) :
    KeepsAccess (preferred long short conditionalSet) := by
  refine keepsAccess_preferred implicit ?_
  intro register operands reduced counts reduces
  rw [longAccess, shortAccess]
  exact accessToAll_conditionalSet counts reduces

theorem keepsAccess_conditionalChange
    (implicit : short.info.SameImplicit long.info)
    (longAccess : long.info.access = [.write, .read, .read, .read])
    (shortAccess : short.info.access = [.write, .read, .read]) :
    KeepsAccess (preferred long short conditionalChange) := by
  refine keepsAccess_preferred implicit ?_
  intro register operands reduced _ reduces
  rw [longAccess, shortAccess]
  exact accessToAll_conditionalChange reduces

theorem keepsAccess_withoutAddend
    (implicit : short.info.SameImplicit long.info)
    (longAccess : long.info.access = [.write, .read, .read, .read])
    (shortAccess : short.info.access = [.write, .read, .read]) :
    KeepsAccess (preferred long short withoutAddend) := by
  refine keepsAccess_preferred implicit ?_
  intro register operands reduced counts reduces
  rw [longAccess, shortAccess]
  exact accessToAll_withoutAddend counts reduces

theorem keepsAccess_hintOf
    {code : Int}
    (implicit : short.info.SameImplicit Opcode.hint.info)
    (shortAccess : short.info.access = []) :
    KeepsAccess (preferred .hint short (hintOf code)) := by
  refine keepsAccess_preferred implicit ?_
  intro register operands reduced _ reduces
  rw [shortAccess]
  exact accessToAll_hintOf reduces

/-- A shift by a register is only given another name. -/
theorem keepsAccess_some
    (implicit : short.info.SameImplicit long.info)
    (sameAccess : short.info.access = long.info.access) :
    KeepsAccess (preferred long short some) := by
  refine keepsAccess_preferred implicit ?_
  intro register operands reduced _ reduces
  cases reduces
  rw [sameAccess]

end Rules

/-- The link register is read in both forms, named or not. -/
theorem keepsAccess_linkReturn :
    KeepsAccess (preferred .ret .retLink linkReturn) := by
  refine ⟨.ret, .retLink, rfl, rfl, ?_⟩
  intro register operands reduced _ takes reduces specifics
  rcases exists_of_linkReturn reduces with ⟨target, link, rfl, rfl⟩
  rw [eq_returnAddress_of_isRegister (takes _ rfl) link, Detail.accessTo_eq,
    Detail.accessTo_eq]
  simp [detail, Opcode.info, accessOperands, accessToAll, accessTo,
    reads, writes, Operand.directRegisters, Access.join, Access.read,
    Access.none, Register.coveredBy_append, Bool.or_comm]

theorem keepsAccess_of_mem : ∀ rule ∈ preferredForms, KeepsAccess rule := by
  simp only [preferredForms, List.forall_mem_cons]
  exact
    ⟨keepsAccess_preferred ⟨rfl, rfl⟩ fun _ => accessToAll_stackMove,
      keepsAccess_withoutDestination ⟨rfl, rfl⟩ rfl,
      keepsAccess_withoutDestination ⟨rfl, rfl⟩ rfl,
      keepsAccess_withoutDestination ⟨rfl, rfl⟩ rfl,
      keepsAccess_fromZero ⟨rfl, rfl⟩ rfl rfl
        withoutFirstSource_of_logicalMove,
      keepsAccess_preferred ⟨rfl, rfl⟩ fun _ => accessToAll_wideMove,
      keepsAccess_preferred ⟨rfl, rfl⟩ fun _ => accessToAll_invertedMove,
      keepsAccess_extension ⟨rfl, rfl⟩ rfl rfl,
      keepsAccess_extension ⟨rfl, rfl⟩ rfl rfl,
      keepsAccess_extension ⟨rfl, rfl⟩ rfl rfl,
      keepsAccess_withConstants ⟨rfl, rfl⟩ rfl rfl,
      keepsAccess_withConstants ⟨rfl, rfl⟩ rfl rfl,
      keepsAccess_withConstants ⟨rfl, rfl⟩ rfl rfl,
      keepsAccess_extension ⟨rfl, rfl⟩ rfl rfl,
      keepsAccess_extension ⟨rfl, rfl⟩ rfl rfl,
      keepsAccess_withConstants ⟨rfl, rfl⟩ rfl rfl,
      keepsAccess_withConstants ⟨rfl, rfl⟩ rfl rfl,
      keepsAccess_withConstants ⟨rfl, rfl⟩ rfl rfl,
      keepsAccess_withConstants ⟨rfl, rfl⟩ rfl rfl,
      keepsAccess_withConstants ⟨rfl, rfl⟩ rfl rfl,
      keepsAccess_withConstants ⟨rfl, rfl⟩ rfl rfl,
      keepsAccess_preferred ⟨rfl, rfl⟩ fun _ => accessToAll_rotation,
      keepsAccess_linkReturn,
      keepsAccess_hintOf ⟨rfl, rfl⟩ rfl,
      keepsAccess_hintOf ⟨rfl, rfl⟩ rfl,
      keepsAccess_hintOf ⟨rfl, rfl⟩ rfl,
      keepsAccess_hintOf ⟨rfl, rfl⟩ rfl,
      keepsAccess_hintOf ⟨rfl, rfl⟩ rfl,
      keepsAccess_hintOf ⟨rfl, rfl⟩ rfl,
      keepsAccess_fromZero ⟨rfl, rfl⟩ rfl rfl
        withoutFirstSource_of_registerMove,
      keepsAccess_fromZero ⟨rfl, rfl⟩ rfl rfl id,
      keepsAccess_withoutDestination ⟨rfl, rfl⟩ rfl,
      keepsAccess_withoutDestination ⟨rfl, rfl⟩ rfl,
      keepsAccess_withoutDestination ⟨rfl, rfl⟩ rfl,
      keepsAccess_fromZero ⟨rfl, rfl⟩ rfl rfl id,
      keepsAccess_fromZero ⟨rfl, rfl⟩ rfl rfl id,
      keepsAccess_conditionalSet ⟨rfl, rfl⟩ rfl rfl,
      keepsAccess_conditionalChange ⟨rfl, rfl⟩ rfl rfl,
      keepsAccess_conditionalSet ⟨rfl, rfl⟩ rfl rfl,
      keepsAccess_conditionalChange ⟨rfl, rfl⟩ rfl rfl,
      keepsAccess_conditionalChange ⟨rfl, rfl⟩ rfl rfl,
      keepsAccess_withoutAddend ⟨rfl, rfl⟩ rfl rfl,
      keepsAccess_withoutAddend ⟨rfl, rfl⟩ rfl rfl,
      keepsAccess_some ⟨rfl, rfl⟩ rfl,
      keepsAccess_some ⟨rfl, rfl⟩ rfl,
      keepsAccess_some ⟨rfl, rfl⟩ rfl,
      keepsAccess_some ⟨rfl, rfl⟩ rfl,
      by simp⟩

/-- The last corrections to a detail record concern no register. -/
theorem accessTo_completeDetail (register : Register) (detail : Detail) :
    (completeDetail detail).accessTo register = detail.accessTo register := by
  rw [Detail.accessTo_eq, Detail.accessTo_eq]
  cases known : detail.specifics <;>
    simp [completeDetail, known, Specifics.implicitReads]

theorem detailOf?_id
    (opcode : Opcode)
    (operands : List Operand)
    (specifics : Specifics) :
    isa.detailOf? ⟨opcode.id, operands⟩ specifics =
      some (completeDetail (opcode.info.detail operands specifics)) := by
  simp [Isa.detailOf?, isa]

/-- Whether a number is that of an opcode. -/
def isNamed (number _format : Nat) : Bool :=
  (Opcode.ofId? number).any fun opcode => opcode.id = number

theorem isNamed_of_mem : ∀ entry ∈ table.entries, entry.fits isNamed := by
  decide +kernel

/--
What has been decoded is described, and so is its preferred form; both touch
the same registers, apart from the zero register.
-/
theorem exists_details
    {word : Word}
    (four : word.size = 4)
    {features : Features}
    {raw : RawInstruction}
    (decoded : isa.run table word features = .ok raw) :
    ∃ rawDetail detail,
      isa.detailOf? raw.form raw.specifics = some rawDetail ∧
        isa.detailOf? (Alias.canonicalize isa.aliases raw.form)
            raw.specifics =
          some detail ∧
        ∀ register : Register, register.id ≠ zeroRegister →
          detail.accessTo register = rawDetail.accessTo register := by
  rcases Isa.exists_fit_of_run isNamed_of_mem decoded with ⟨_, _, named, -⟩
  obtain ⟨opcode, same⟩ : ∃ opcode : Opcode, opcode.id = raw.opcode := by
    rcases (Option.any_eq_true _ _).mp named with ⟨opcode, -, same⟩
    exact ⟨opcode, of_decide_eq_true same⟩
  rcases Alias.canonicalize_eq_or_exists isa.aliases raw.form with
    unchanged | applied
  · rw [unchanged, RawInstruction.form, ← same, detailOf?_id]
    exact ⟨_, _, rfl, rfl, fun _ _ => rfl⟩
  · rcases applied with ⟨rule, listed, applies⟩
    rcases Alias.exists_of_form? applies with
      ⟨isRaw, reduced, reduces, result⟩
    rcases keepsAccess_of_mem rule listed with
      ⟨long, short, isLong, isShort, keeps⟩
    have sameLong : long.id = raw.opcode := isLong.symm.trans isRaw
    have takes : long.Takes raw.operands := fun format known =>
      gives_of_run four decoded sameLong known
    rw [result, RawInstruction.form, ← sameLong, isShort, detailOf?_id,
      detailOf?_id]
    refine ⟨_, _, rfl, rfl, ?_⟩
    intro register counts
    rw [accessTo_completeDetail, accessTo_completeDetail]
    exact keeps counts takes reduces raw.specifics

end MachineCode.Arm64
