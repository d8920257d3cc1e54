import MachineCode.Proofs.Alias
import MachineCode.Proofs.FirstWord

/-!
# Operands and the access list of their opcode

The description of an opcode lists how each operand is accessed, in operand
order. Operands suit such a list (`Suits`) if it has an access for each of
them, each is read or written, only what can hold a result is written, and
all registers belong to the instruction set. A format says what an opcode may
at most do to the operands it reads; an opcode that does less suits them, too
(`Suits.of_listWithin`).
-/

namespace MachineCode

/-- Whether an operand of the kind can be written. -/
def OperandKind.isWritable : OperandKind → Bool
  | .register | .memory | .registers | .systemRegister => true
  | .immediate | .relative | .float | .shiftedRegister | .shift
  | .condition => false

/-- The registers that an operand mentions, in a memory reference or not. -/
def Operand.mentions : Operand → List Register
  | .memory reference => reference.base.toList ++ reference.index.toList
  | operand => operand.directRegisters

/-- Whether an operand is accessed, and in a way that its kind allows. -/
structure AccessedOperand.IsProper (accessed : AccessedOperand) : Prop where
  touched : accessed.access ≠ .none
  writable : accessed.access.writes → accessed.operand.kind.isWritable

/-- Whether operands of owned registers suit a list of accesses. -/
inductive Suits (owns : Register → Prop) :
    List Access → List Operand → Prop where
  | done (accesses : List Access) : Suits owns accesses []
  | operand {access : Access} {accesses : List Access}
      {operand : Operand} {operands : List Operand}
      (proper : AccessedOperand.IsProper ⟨operand, access⟩)
      (own : ∀ register ∈ operand.mentions, owns register)
      (rest : Suits owns accesses operands) :
      Suits owns (access :: accesses) (operand :: operands)

namespace Access

/-- Whether something is done, and written only where that is allowed. -/
def isWithin (access limit : Access) : Bool :=
  access ≠ .none && (!access.writes || limit.writes)

/-- Whether a list of accesses is within another one, place by place. -/
def listWithin : List Access → List Access → Bool
  | _, [] => true
  | [], _ :: _ => false
  | access :: accesses, limit :: limits =>
    access.isWithin limit && listWithin accesses limits

end Access

namespace Suits

variable
  {owns : Register → Prop}
  {access : Access}
  {accesses : List Access}
  {operand : Operand}
  {operands : List Operand}

/-- Something that may be read and written. -/
theorem location
    (writable : operand.kind.isWritable)
    (own : ∀ register ∈ operand.mentions, owns register)
    (rest : Suits owns accesses operands) :
    Suits owns (.readWrite :: accesses) (operand :: operands) :=
  .operand ⟨show Access.readWrite ≠ .none by decide, fun _ => writable⟩ own
    rest

/-- Something that is only read. -/
theorem source
    (own : ∀ register ∈ operand.mentions, owns register)
    (rest : Suits owns accesses operands) :
    Suits owns (.read :: accesses) (operand :: operands) :=
  .operand ⟨show Access.read ≠ .none by decide, fun writes => nomatch writes⟩
    own rest

/-- A register that may be read and written. -/
theorem destination
    {register : Register}
    (own : owns register)
    (rest : Suits owns accesses operands) :
    Suits owns (.readWrite :: accesses) (.register register :: operands) :=
  .location rfl (List.forall_mem_singleton.mpr own) rest

/-- A register that is only read. -/
theorem sourceRegister
    {register : Register}
    (own : owns register)
    (rest : Suits owns accesses operands) :
    Suits owns (.read :: accesses) (.register register :: operands) :=
  .source (List.forall_mem_singleton.mpr own) rest

/-- Something without registers that is only read. -/
theorem value
    (silent : operand.mentions = [])
    (rest : Suits owns accesses operands) :
    Suits owns (.read :: accesses) (operand :: operands) :=
  .source (by simp [silent]) rest

/-- What an opcode does to its operands may be less than is allowed. -/
theorem of_listWithin
    {limits : List Access}
    (suits : Suits owns limits operands)
    (within : Access.listWithin accesses limits) :
    Suits owns accesses operands := by
  induction suits generalizing accesses with
  | done => exact .done accesses
  | @operand limit limits operand operands proper own rest induction =>
      cases accesses with
      | nil => cases within
      | cons access accesses =>
          simp only [Access.listWithin, Access.isWithin, Bool.and_eq_true,
            decide_eq_true_eq, Bool.or_eq_true, Bool.not_eq_true'] at within
          rcases within with ⟨⟨touched, allowed⟩, within⟩
          refine .operand ⟨touched, fun writes => ?_⟩ own (induction within)
          rcases allowed with reads | allowed
          · exact absurd writes (by simp [reads])
          · exact proper.writable allowed

/-- There is an access for each operand. -/
theorem length_le (suits : Suits owns accesses operands) :
    operands.length ≤ accesses.length := by
  induction suits with
  | done => exact Nat.zero_le _
  | operand _ _ _ induction => exact Nat.succ_le_succ induction

/-- The operands take the first accesses, in order. -/
theorem map_access (suits : Suits owns accesses operands) :
    (OpcodeInfo.accessOperands operands accesses).map
        AccessedOperand.access =
      accesses.take operands.length := by
  induction suits with
  | done => rfl
  | operand _ _ _ induction =>
      simp [OpcodeInfo.accessOperands, induction]

theorem isProper_of_mem
    (suits : Suits owns accesses operands)
    {accessed : AccessedOperand}
    (member : accessed ∈ OpcodeInfo.accessOperands operands accesses) :
    accessed.IsProper := by
  induction suits with
  | done => cases member
  | operand proper _ _ induction =>
      rcases List.mem_cons.mp member with rfl | member
      · exact proper
      · exact induction member

theorem owns_of_mem
    (suits : Suits owns accesses operands)
    {register : Register}
    (member : register ∈ operands.flatMap Operand.mentions) :
    owns register := by
  induction suits with
  | done => cases member
  | operand _ own _ induction =>
      rcases List.mem_append.mp member with named | member
      · exact own register named
      · exact induction member

end Suits

/-! ## Reads of operands -/

/-- Whether whatever a read gives has a property. -/
inductive Yields {α : Type} (holds : α → Prop) : Read α → Prop where
  | ok {value : α} (has : holds value) : Yields holds (.ok value)
  | error (fault : OperandError) : Yields holds (.error fault)

namespace Yields

variable
  {α β : Type}
  {holds : α → Prop}
  {holdsRest : β → Prop}

theorem of_forall
    {read : Read α}
    (each : ∀ value, read = .ok value → holds value) :
    Yields holds read := by
  cases read with
  | error fault => exact error fault
  | ok value => exact ok (each value rfl)

theorem holds_of_eq_ok
    {read : Read α}
    (yields : Yields holds read)
    {value : α}
    (given : read = .ok value) :
    holds value := by
  cases yields with
  | ok has =>
      cases given
      exact has
  | error => cases given

/-- A read in two parts gives what the second part gives. -/
theorem bind
    {first : Read α}
    {rest : α → Read β}
    (yields : Yields holds first)
    (restYields : ∀ value, holds value → Yields holdsRest (rest value)) :
    Yields holdsRest (first >>= rest) := by
  cases yields with
  | ok has => exact restYields _ has
  | error fault => exact error fault

/-- As `bind`, if nothing need be known of the first part. -/
theorem bindAny
    {first : Read α}
    {rest : α → Read β}
    (restYields : ∀ value, Yields holdsRest (rest value)) :
    Yields holdsRest (first >>= rest) := by
  cases first with
  | ok value => exact restYields value
  | error fault => exact error fault

theorem map
    {read : Read α}
    (yields : Yields holds read)
    {convert : α → β}
    (converts : ∀ value, holds value → holdsRest (convert value)) :
    Yields holdsRest (convert <$> read) := by
  cases yields with
  | ok has => exact ok (converts _ has)
  | error fault => exact error fault

theorem ite
    {condition : Prop}
    [Decidable condition]
    {first second : Read α}
    (firstYields : Yields holds first)
    (secondYields : Yields holds second) :
    Yields holds (if condition then first else second) := by
  split
  · exact firstYields
  · exact secondYields

end Yields

/-- Whether what is read suits a list of accesses. -/
structure Reading.Suits
    (owns : Register → Prop)
    (accesses : List Access)
    (reading : Reading) :
    Prop where
  operands : MachineCode.Suits owns accesses reading.operands
  implicit : ∀ register ∈ reading.specifics.implicitReads, owns register

/-! ## Preferred forms -/

/--
Whether the preferred form of a rule suits its opcode, if the raw form does
and takes operands as such forms do.
-/
def Isa.KeepsSuits
    (isa : Isa)
    (owns : Register → Prop)
    (takes : Form → Prop)
    (rule : Alias) :
    Prop :=
  ∃ long short : OpcodeInfo,
    isa.info? rule.opcode = some long ∧
      isa.info? rule.preferred = some short ∧
      ∀ {operands reduced : List Operand},
        takes ⟨rule.opcode, operands⟩ →
          rule.reduce operands = some reduced →
          Suits owns long.access operands →
          Suits owns short.access reduced

/-- The preferred form of a form that suits its opcode does, too. -/
theorem Isa.suits_canonicalize
    {isa : Isa}
    {owns : Register → Prop}
    {takes : Form → Prop}
    (keeps : ∀ rule ∈ isa.aliases, isa.KeepsSuits owns takes rule)
    {raw : Form}
    {long : OpcodeInfo}
    (described : isa.info? raw.opcode = some long)
    (taken : takes raw)
    (suits : Suits owns long.access raw.operands)
    {info : OpcodeInfo}
    (preferred :
      isa.info? (Alias.canonicalize isa.aliases raw).opcode = some info) :
    Suits owns info.access (Alias.canonicalize isa.aliases raw).operands := by
  rcases Alias.canonicalize_eq_or_exists isa.aliases raw with
    unchanged | ⟨rule, listed, applies⟩
  · rw [unchanged, described] at preferred
    cases preferred
    rw [unchanged]
    exact suits
  · rcases Alias.exists_of_form? applies with
      ⟨isRaw, reduced, reduces, result⟩
    rcases keeps rule listed with ⟨_, _, isLong, isShort, keeps⟩
    rw [result, isShort] at preferred
    rw [isRaw, described] at isLong
    cases preferred
    cases isLong
    rw [result]
    exact keeps (isRaw ▸ taken) reduces suits

/-! ## Instructions -/

/-- The registers that a record mentions without naming them. -/
def Detail.unnamed (detail : Detail) : List Register :=
  detail.specifics.implicitReads ++ detail.implicitReads ++
    detail.implicitWrites

/-- Whether an instruction of owned registers suits its opcode. -/
structure Instruction.IsDescribed
    (isa : Isa)
    (owns : Register → Prop)
    (instruction : Instruction)
    (info : OpcodeInfo)
    (detail : Detail) :
    Prop where
  opcode_eq : instruction.opcode.bind isa.info? = some info
  detail_eq : instruction.detail = some detail
  operands_eq :
    detail.operands =
      OpcodeInfo.accessOperands instruction.operands info.access
  suits : Suits owns info.access instruction.operands
  owns_unnamed : ∀ register ∈ detail.unnamed, owns register

/-- A decoded instruction is described if its preferred form suits it. -/
theorem Engine.exists_isDescribed
    {isa : Isa}
    (completes :
      ∀ detail, (isa.completeDetail detail).operands = detail.operands)
    {owns : Register → Prop}
    {options : Options}
    {word : Word}
    (suits :
      ∀ {raw : RawInstruction} {info : OpcodeInfo},
        Engine.decodeRaw ⟨isa, options⟩ word = .ok raw →
          isa.info? (Alias.canonicalize isa.aliases raw.form).opcode =
              some info →
            Suits owns info.access
                (Alias.canonicalize isa.aliases raw.form).operands ∧
              ∀ operands,
                ∀ register ∈
                    (isa.completeDetail
                      (info.detail operands raw.specifics)).unnamed,
                  owns register)
    {decoded : Decoded}
    (success : Engine.decodeWord ⟨isa, options⟩ word true = .ok decoded) :
    ∃ info detail,
      decoded.instruction.IsDescribed isa owns info detail := by
  rcases Engine.exists_describe_of_decodeWord success with
    ⟨raw, info, read, described, rfl⟩
  rcases suits read described with ⟨suits, unnamed⟩
  exact
    ⟨info, _,
      { opcode_eq := described
        detail_eq := rfl
        operands_eq := completes _
        suits
        owns_unnamed := unnamed _ }⟩

end MachineCode
