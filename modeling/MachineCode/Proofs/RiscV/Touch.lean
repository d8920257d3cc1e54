import MachineCode.Proofs.Access
import MachineCode.Proofs.RiscV.Manual

/-!
# The registers that a RISC-V instruction touches

The registers that an instruction reads and writes, apart from the zero
register, which holds no state. Left-out operands that are the zero register
or a constant make no difference (`Drops`), so a pseudo-instruction touches
the same registers as the instruction that it stands for
(`sameTouches_canonicalize`).
-/

namespace MachineCode.RiscV

/-- Whether two records touch the same registers, apart from the zero one. -/
def SameTouches (left right : Detail) : Prop :=
  ∀ register : Register, register.id ≠ zeroRegister →
    (register ∈ left.readMentions ↔ register ∈ right.readMentions) ∧
      (register ∈ left.writeMentions ↔ register ∈ right.writeMentions)

/-- Whether two records list the same registers, apart from the zero one. -/
def SameRegisters (left right : Detail) : Prop :=
  ∀ register : Register, register.id ≠ zeroRegister →
    (register ∈ left.reads ↔ register ∈ right.reads) ∧
      (register ∈ left.writes ↔ register ∈ right.writes)

theorem SameTouches.refl (detail : Detail) : SameTouches detail detail :=
  fun _ _ => ⟨Iff.rfl, Iff.rfl⟩

theorem SameTouches.symm
    {left right : Detail}
    (same : SameTouches left right) :
    SameTouches right left := by
  intro register counts
  rcases same register counts with ⟨reads, writes⟩
  exact ⟨reads.symm, writes.symm⟩

theorem SameTouches.trans
    {first second third : Detail}
    (left : SameTouches first second)
    (right : SameTouches second third) :
    SameTouches first third := by
  intro register counts
  rcases left register counts with ⟨leftReads, leftWrites⟩
  rcases right register counts with ⟨rightReads, rightWrites⟩
  exact ⟨leftReads.trans rightReads, leftWrites.trans rightWrites⟩

/-- The detail record of an instruction. -/
def Opcode.detail
    (xlen : Xlen)
    (opcode : Opcode)
    (operands : List Operand)
    (specifics : Specifics) :
    Detail :=
  completeDetail xlen (opcode.info.detail operands specifics)

/-! ## Registers of the instruction set -/

/-- Whether a register is one of the instruction set. -/
def Xlen.Owns (xlen : Xlen) (register : Register) : Prop :=
  ∃ (bank : Bank) (number : Nat),
    number < 32 ∧ register = bank.register xlen number

namespace Xlen.Owns

variable {xlen : Xlen} {register other : Register}

/-- A register of the instruction set is known by its number. -/
theorem eq_of_id_eq
    (owns : xlen.Owns register)
    (ownsOther : xlen.Owns other)
    (same : register.id = other.id) :
    register = other := by
  rcases owns with ⟨bank, number, small, rfl⟩
  rcases ownsOther with ⟨otherBank, otherNumber, otherSmall, rfl⟩
  cases bank <;> cases otherBank <;> simp only [Bank.register] at same ⊢
  · rw [same]
  · omega
  · omega
  · rw [same]

end Xlen.Owns

/-- The link register, given its width, is an integer register. -/
theorem atWidth_returnAddress (xlen : Xlen) :
    atWidth xlen returnAddress =
      Bank.integer.register xlen linkRegister :=
  rfl

/--
Whether the registers that a record mentions are those of the instruction set,
apart from the zero register.
-/
def Xlen.OwnsMentions (xlen : Xlen) (detail : Detail) : Prop :=
  ∀ register : Register, register.id ≠ zeroRegister →
    register ∈ detail.readMentions ∨ register ∈ detail.writeMentions →
      xlen.Owns register

theorem SameTouches.ownsMentions
    {xlen : Xlen}
    {left right : Detail}
    (same : SameTouches left right)
    (owns : xlen.OwnsMentions right) :
    xlen.OwnsMentions left := by
  intro register counts mentioned
  rcases same register counts with ⟨reads, writes⟩
  rw [reads, writes] at mentioned
  exact owns register counts mentioned

/-- What a record lists is what it mentions. -/
theorem Xlen.OwnsMentions.mem_iff
    {xlen : Xlen}
    {detail : Detail}
    (owns : xlen.OwnsMentions detail)
    {register : Register}
    (counts : register.id ≠ zeroRegister) :
    (register ∈ detail.reads ↔ register ∈ detail.readMentions) ∧
      (register ∈ detail.writes ↔ register ∈ detail.writeMentions) := by
  constructor
  · refine Register.mem_distinct_iff ?_
    intro mentioned other also same
    have sameId := (Register.sameStorage_iff.mp same).2
    exact (owns other (sameId ▸ counts) (.inl also)).eq_of_id_eq
      (owns register counts (.inl mentioned)) sameId
  · refine Register.mem_distinct_iff ?_
    intro mentioned other also same
    have sameId := (Register.sameStorage_iff.mp same).2
    exact (owns other (sameId ▸ counts) (.inr also)).eq_of_id_eq
      (owns register counts (.inr mentioned)) sameId

/-- Records that touch the same registers list the same registers. -/
theorem SameTouches.sameRegisters
    {xlen : Xlen}
    {left right : Detail}
    (same : SameTouches left right)
    (owns : xlen.OwnsMentions right) :
    SameRegisters left right := by
  intro register counts
  rcases (same.ownsMentions owns).mem_iff counts with ⟨leftReads, leftWrites⟩
  rcases owns.mem_iff counts with ⟨rightReads, rightWrites⟩
  rw [leftReads, leftWrites, rightReads, rightWrites]
  exact same register counts

/-- Whether an operand that is a register is one of the instruction set. -/
def Xlen.OwnsOperand (xlen : Xlen) (operand : Operand) : Prop :=
  ∀ register, operand = .register register → xlen.Owns register

/-- The operand of the instruction set that has the link register's number. -/
theorem eq_link_of_isRegister
    {xlen : Xlen}
    {operand : Operand}
    (owns : xlen.OwnsOperand operand)
    (link : operand.isRegister linkRegister) :
    operand = .register (atWidth xlen returnAddress) := by
  rw [Operand.isRegister, decide_eq_true_eq] at link
  rcases Option.map_eq_some_iff.mp link with ⟨register, found, same⟩
  cases operand with
  | register named =>
      cases found
      have own : xlen.Owns (atWidth xlen returnAddress) :=
        ⟨.integer, linkRegister, by decide, atWidth_returnAddress xlen⟩
      rw [(owns _ rfl).eq_of_id_eq own same]
  | _ => cases found

/-- Records that touch the same registers touch the same storage. -/
theorem SameTouches.accessTo_eq
    {left right : Detail}
    (same : SameTouches left right)
    {register : Register}
    (counts : register.id ≠ zeroRegister) :
    left.accessTo register = right.accessTo register := by
  have covered
      {mentions others : List Register}
      (agree :
        ∀ mention : Register, mention.id ≠ zeroRegister →
          (mention ∈ mentions ↔ mention ∈ others)) :
      register.coveredBy mentions = register.coveredBy others := by
    rw [Bool.eq_iff_iff, Register.coveredBy, Register.coveredBy,
      List.any_eq_true, List.any_eq_true]
    refine exists_congr fun mention => and_congr_left fun sameStorage => ?_
    have sameId := (Register.sameStorage_iff.mp sameStorage).2
    exact agree mention (sameId ▸ counts)
  simp only [Detail.accessTo, Detail.readsRegister, Detail.writesRegister,
    Detail.reads, Detail.writes, Register.coveredBy_distinct]
  rw [covered fun mention counts => (same mention counts).1,
    covered fun mention counts => (same mention counts).2]

/-! ## Operands that are left out -/

/-- Whether an operand touches no register but the zero register. -/
def Silent (accessed : AccessedOperand) : Prop :=
  ∀ register,
    register ∈ accessed.reads ∨ register ∈ accessed.writes →
      register.id = zeroRegister

theorem silent_of_isRegister
    {operand : Operand}
    (zero : operand.isRegister zeroRegister)
    (access : Access) :
    Silent ⟨operand, access⟩ := by
  rw [Operand.isRegister, decide_eq_true_eq] at zero
  rcases Option.map_eq_some_iff.mp zero with ⟨named, found, same⟩
  cases operand with
  | register =>
      cases found
      intro register touched
      have mentioned : register ∈ [named] := by
        rcases touched with read | written
        · simp only [AccessedOperand.reads, Operand.directRegisters] at read
          split at read
          · exact read
          · cases read
        · simp only [AccessedOperand.writes, Operand.directRegisters]
            at written
          split at written
          · exact written
          · cases written
      rw [List.mem_singleton.mp mentioned, same]
  | _ => cases found

theorem silent_of_isConstant
    {operand : Operand}
    {value : Int}
    (constant : operand.isConstant value)
    (access : Access) :
    Silent ⟨operand, access⟩ := by
  rw [Operand.isConstant, decide_eq_true_eq] at constant
  cases operand with
  | immediate =>
      intro register touched
      rcases touched with read | written
      · simp [AccessedOperand.reads, Operand.directRegisters] at read
      · simp [AccessedOperand.writes, Operand.directRegisters] at written
  | _ => cases constant

theorem silent_systemRegister (register : SystemRegister) (access : Access) :
    Silent ⟨.systemRegister register, access⟩ := by
  intro named touched
  rcases touched with read | written
  · simp [AccessedOperand.reads, Operand.directRegisters] at read
  · simp [AccessedOperand.writes, Operand.directRegisters] at written

/-- Some operands, of which silent ones are left out or changed. -/
inductive Drops : List AccessedOperand → List AccessedOperand → Prop where
  | nil : Drops [] []
  | keep {longs shorts : List AccessedOperand} (accessed : AccessedOperand)
      (rest : Drops longs shorts) :
      Drops (accessed :: longs) (accessed :: shorts)
  | drop {longs shorts : List AccessedOperand} {accessed : AccessedOperand}
      (silent : Silent accessed)
      (rest : Drops longs shorts) :
      Drops (accessed :: longs) shorts
  | change {longs shorts : List AccessedOperand}
      {accessed other : AccessedOperand}
      (silent : Silent accessed)
      (silentOther : Silent other)
      (rest : Drops longs shorts) :
      Drops (accessed :: longs) (other :: shorts)

theorem Drops.mem_iff
    {longs shorts : List AccessedOperand}
    (drops : Drops longs shorts)
    {register : Register}
    (counts : register.id ≠ zeroRegister) :
    (register ∈ longs.flatMap AccessedOperand.reads ↔
        register ∈ shorts.flatMap AccessedOperand.reads) ∧
      (register ∈ longs.flatMap AccessedOperand.writes ↔
        register ∈ shorts.flatMap AccessedOperand.writes) := by
  induction drops with
  | nil => exact ⟨Iff.rfl, Iff.rfl⟩
  | keep accessed _ induction =>
      simp only [List.flatMap_cons, List.mem_append]
      exact ⟨or_congr_right induction.1, or_congr_right induction.2⟩
  | drop silent _ induction =>
      simp only [List.flatMap_cons, List.mem_append]
      constructor
      · rw [← induction.1]
        exact or_iff_right fun read => counts (silent register (.inl read))
      · rw [← induction.2]
        exact or_iff_right fun wrote => counts (silent register (.inr wrote))
  | change silent silentOther _ induction =>
      simp only [List.flatMap_cons, List.mem_append]
      constructor
      · rw [or_iff_right fun read => counts (silent register (.inl read)),
          or_iff_right fun read => counts (silentOther register (.inl read))]
        exact induction.1
      · rw [or_iff_right fun wrote => counts (silent register (.inr wrote)),
          or_iff_right fun wrote =>
            counts (silentOther register (.inr wrote))]
        exact induction.2

/-- Two opcodes of which the shorter form leaves out silent operands. -/
theorem sameTouches_of_drops
    {xlen : Xlen}
    {specifics : Specifics}
    {long short : Opcode}
    {longs shorts : List Operand}
    (sameReads : long.info.implicitReads = short.info.implicitReads)
    (sameWrites : long.info.implicitWrites = short.info.implicitWrites)
    (drops :
      Drops (OpcodeInfo.accessOperands longs long.info.access)
        (OpcodeInfo.accessOperands shorts short.info.access)) :
    SameTouches (long.detail xlen longs specifics)
      (short.detail xlen shorts specifics) := by
  intro register counts
  rcases drops.mem_iff counts with ⟨reads, writes⟩
  simp only [Opcode.detail, completeDetail, OpcodeInfo.detail,
    Detail.readMentions, Detail.writeMentions, List.mem_append, sameReads,
    sameWrites]
  exact ⟨or_congr_left (or_congr_left reads), or_congr_left writes⟩

end MachineCode.RiscV
