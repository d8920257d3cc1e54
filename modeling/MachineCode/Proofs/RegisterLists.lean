import MachineCode.Proofs.Detail

/-!
# What causes a register to be read or written

A register is read for one of the causes that `Detail.CausesRead` lists: it is
named by an operand that is read, it is part of an address, or it is read
without being named. `Detail.CausesWrite` lists the causes of a write. The
lists of a record hold the storage of these registers and no other, each
location once and in the order of first mention, and what the record says of
one register is read off the lists (`Detail.lists_registers`).
-/

namespace MachineCode

namespace Detail

/-! ## Why a register is mentioned -/

/-- What causes a register to be read. -/
inductive CausesRead (detail : Detail) : Register → Prop where
  /-- It is named by an operand that is read and is no memory reference. -/
  | operand
      {accessed : AccessedOperand}
      {register : Register}
      (member : accessed ∈ detail.operands)
      (notMemory : accessed.operand.kind ≠ .memory)
      (reads : accessed.access.reads)
      (named : register ∈ accessed.operand.directRegisters) :
      CausesRead detail register
  /-- It is the base of a memory reference, however that is accessed. -/
  | base
      {access : Access}
      {reference : MemoryReference}
      {register : Register}
      (member : ⟨.memory reference, access⟩ ∈ detail.operands)
      (isBase : reference.base = some register) :
      CausesRead detail register
  /-- It is the index of a memory reference, however that is accessed. -/
  | index
      {access : Access}
      {reference : MemoryReference}
      {register : Register}
      (member : ⟨.memory reference, access⟩ ∈ detail.operands)
      (isIndex : reference.index = some register) :
      CausesRead detail register
  /-- The architecture reads it. -/
  | architecture
      {register : Register}
      (member : register ∈ detail.specifics.implicitReads) :
      CausesRead detail register
  /-- The opcode reads it. -/
  | implicit
      {register : Register}
      (member : register ∈ detail.implicitReads) :
      CausesRead detail register

/-- What causes a register to be written. -/
inductive CausesWrite (detail : Detail) : Register → Prop where
  /-- It is named by an operand that is written and is no memory reference. -/
  | operand
      {accessed : AccessedOperand}
      {register : Register}
      (member : accessed ∈ detail.operands)
      (notMemory : accessed.operand.kind ≠ .memory)
      (writes : accessed.access.writes)
      (named : register ∈ accessed.operand.directRegisters) :
      CausesWrite detail register
  /-- It is the base of a memory reference that moves it. -/
  | base
      {access : Access}
      {reference : MemoryReference}
      {register : Register}
      (member : ⟨.memory reference, access⟩ ∈ detail.operands)
      (isBase : reference.base = some register)
      (moves : reference.mode = .preIndex ∨ reference.mode = .postIndex) :
      CausesWrite detail register
  /-- The opcode writes it. -/
  | implicit
      {register : Register}
      (member : register ∈ detail.implicitWrites) :
      CausesWrite detail register

end Detail

namespace AccessedOperand

variable {access : Access} {operand : Operand} {register : Register}

/-- An operand that is no memory reference causes what its access says. -/
theorem mem_of_kind_ne_memory (notMemory : operand.kind ≠ .memory) :
    (register ∈ reads ⟨operand, access⟩ ↔
        access.reads ∧ register ∈ operand.directRegisters) ∧
      (register ∈ writes ⟨operand, access⟩ ↔
        access.writes ∧ register ∈ operand.directRegisters) := by
  cases operand with
  | memory => exact absurd rfl notMemory
  | _ => simp [reads, writes]

variable {reference : MemoryReference}

theorem mem_reads_memory :
    register ∈ reads ⟨.memory reference, access⟩ ↔
      reference.base = some register ∨ reference.index = some register := by
  simp [reads]

theorem mem_writes_memory :
    register ∈ writes ⟨.memory reference, access⟩ ↔
      (reference.mode = .preIndex ∨ reference.mode = .postIndex) ∧
        reference.base = some register := by
  cases mode : reference.mode <;>
    simp [writes, MemoryReference.writesBase, mode, eq_comm]

end AccessedOperand

namespace Detail

variable {detail : Detail} {register : Register}

theorem mem_readMentions_iff :
    register ∈ detail.readMentions ↔ detail.CausesRead register := by
  rw [readMentions, List.mem_append, List.mem_append, List.mem_flatMap]
  constructor
  · rintro ((⟨⟨operand, access⟩, member, causes⟩ | added) | implicit)
    · by_cases isMemory : operand.kind = .memory
      · cases operand with
        | memory reference =>
            rcases AccessedOperand.mem_reads_memory.mp causes with
              isBase | isIndex
            · exact .base member isBase
            · exact .index member isIndex
        | _ => cases isMemory
      · rcases
          (AccessedOperand.mem_of_kind_ne_memory isMemory).1.mp causes with
          ⟨reads, named⟩
        exact .operand member isMemory reads named
    · exact .architecture added
    · exact .implicit implicit
  · intro causes
    cases causes with
    | operand member notMemory reads named =>
        exact .inl (.inl ⟨_, member,
          (AccessedOperand.mem_of_kind_ne_memory notMemory).1.mpr
            ⟨reads, named⟩⟩)
    | base member isBase =>
        exact .inl (.inl ⟨_, member,
          AccessedOperand.mem_reads_memory.mpr (.inl isBase)⟩)
    | index member isIndex =>
        exact .inl (.inl ⟨_, member,
          AccessedOperand.mem_reads_memory.mpr (.inr isIndex)⟩)
    | architecture member => exact .inl (.inr member)
    | implicit member => exact .inr member

theorem mem_writeMentions_iff :
    register ∈ detail.writeMentions ↔ detail.CausesWrite register := by
  rw [writeMentions, List.mem_append, List.mem_flatMap]
  constructor
  · rintro (⟨⟨operand, access⟩, member, causes⟩ | implicit)
    · by_cases isMemory : operand.kind = .memory
      · cases operand with
        | memory reference =>
            rcases AccessedOperand.mem_writes_memory.mp causes with
              ⟨moves, isBase⟩
            exact .base member isBase moves
        | _ => cases isMemory
      · rcases
          (AccessedOperand.mem_of_kind_ne_memory isMemory).2.mp causes with
          ⟨writes, named⟩
        exact .operand member isMemory writes named
    · exact .implicit implicit
  · intro causes
    cases causes with
    | operand member notMemory writes named =>
        exact .inl ⟨_, member,
          (AccessedOperand.mem_of_kind_ne_memory notMemory).2.mpr
            ⟨writes, named⟩⟩
    | base member isBase moves =>
        exact .inl ⟨_, member,
          AccessedOperand.mem_writes_memory.mpr ⟨moves, isBase⟩⟩
    | implicit member => exact .inr member

/-- A record reads the storage of what is read for some cause. -/
theorem readsRegister_iff :
    detail.readsRegister register ↔
      ∃ cause, detail.CausesRead cause ∧ cause.sameStorage register := by
  rw [readsRegister, reads, Register.coveredBy_distinct,
    Register.coveredBy_eq_true_iff]
  simp only [mem_readMentions_iff]

/-- A record writes the storage of what is written for some cause. -/
theorem writesRegister_iff :
    detail.writesRegister register ↔
      ∃ cause, detail.CausesWrite cause ∧ cause.sameStorage register := by
  rw [writesRegister, writes, Register.coveredBy_distinct,
    Register.coveredBy_eq_true_iff]
  simp only [mem_writeMentions_iff]

/--
The lists of a record hold the first mention of each location in order, so
that no two entries are the same storage. A register is covered by a list just
if it has the storage of one that is read, or written, for some cause, and
that is what the record says of it.
-/
theorem lists_registers (detail : Detail) :
    Register.ListsFirst detail.readMentions detail.reads ∧
      Register.ListsFirst detail.writeMentions detail.writes ∧
      (detail.reads.Pairwise fun left right =>
        left.sameStorage right = false) ∧
      (detail.writes.Pairwise fun left right =>
        left.sameStorage right = false) ∧
      ∀ register : Register,
        ((∃ listed ∈ detail.reads, listed.sameStorage register) ↔
          ∃ cause, detail.CausesRead cause ∧ cause.sameStorage register) ∧
        ((∃ listed ∈ detail.writes, listed.sameStorage register) ↔
          ∃ cause, detail.CausesWrite cause ∧ cause.sameStorage register) ∧
        (detail.readsRegister register ↔
          ∃ listed ∈ detail.reads, listed.sameStorage register) ∧
        (detail.writesRegister register ↔
          ∃ listed ∈ detail.writes, listed.sameStorage register) := by
  have reads := Register.listsFirst_distinct detail.readMentions
  have writes := Register.listsFirst_distinct detail.writeMentions
  refine ⟨reads, writes, reads.apart, writes.apart, ?_⟩
  intro register
  have readsListed :
      detail.readsRegister register ↔
        ∃ listed ∈ detail.reads, listed.sameStorage register :=
    Register.coveredBy_eq_true_iff
  have writesListed :
      detail.writesRegister register ↔
        ∃ listed ∈ detail.writes, listed.sameStorage register :=
    Register.coveredBy_eq_true_iff
  exact ⟨readsListed.symm.trans readsRegister_iff,
    writesListed.symm.trans writesRegister_iff, readsListed, writesListed⟩

end Detail

end MachineCode
