import MachineCode.Proofs.RiscV.LongOperands
import MachineCode.Proofs.RiscV.ShortOperands
import MachineCode.Proofs.RiscV.Touch

/-!
# Registers by name

The registers that the parts of an instruction touch, by the names that the
instruction gives them. Whether two instructions touch the same names is
decided without looking at a parcel; then they touch the same registers for
every parcel (`sameTouches_of_sameNames`).
-/

namespace MachineCode.RiscV

namespace Part

/-- The registers that a part causes to be read. -/
def readNames (access : Access) : Part → List Named
  | .register named => if access.reads then [named] else []
  | .memory base _ _ => [base]
  | _ => []

/-- The registers that a part causes to be written. -/
def writeNames (access : Access) : Part → List Named
  | .register named => if access.writes then [named] else []
  | _ => []

/-- Whether the registers of a part are in the banks they are taken from. -/
def isSound : Part → Bool
  | .register named => named.isIn named.bank
  | .memory base _ _ => base.isIn .integer
  | _ => true

end Part

/-- Operands of one meaning touch the same registers. -/
theorem SameMeaning.mentions_eq
    {left right : Operand}
    (same : SameMeaning left right)
    (access : Access) :
    (AccessedOperand.mk left access).reads =
        (AccessedOperand.mk right access).reads ∧
      (AccessedOperand.mk left access).writes =
        (AccessedOperand.mk right access).writes := by
  unfold SameMeaning at same
  split at same
  · exact ⟨rfl, rfl⟩
  · rw [same]
    exact ⟨rfl, rfl⟩

theorem SameMeaning.refl (operand : Operand) :
    SameMeaning operand operand := by
  cases operand <;> rfl

/-- The operands of an expansion mean what its parts give. -/
theorem Part.means_operand (xlen : Xlen) (word : Word) (parts : List Part) :
    List.Forall₂ (Part.Means xlen word) parts
      (parts.map (Part.operand xlen word.address word.value)) := by
  induction parts with
  | nil => exact .nil
  | cons part parts induction => exact .cons (.refl _) induction

section Mentions

variable {xlen : Xlen} {word : Word}

/-- What an operand touches is what its part names. -/
theorem Part.Means.mentions_eq
    {part : Part}
    {operand : Operand}
    (means : part.Means xlen word operand)
    (sound : part.isSound)
    (access : Access) :
    (AccessedOperand.mk operand access).reads =
        (part.readNames access).map (Named.register xlen word.value) ∧
      (AccessedOperand.mk operand access).writes =
        (part.writeNames access).map (Named.register xlen word.value) := by
  rcases SameMeaning.mentions_eq means access with ⟨sameReads, sameWrites⟩
  rw [← sameReads, ← sameWrites]
  rcases access with ⟨reads, writes⟩
  cases part with
  | register named => cases reads <;> cases writes <;> exact ⟨rfl, rfl⟩
  | memory base scattering size =>
      refine ⟨?_, rfl⟩
      rw [Part.readNames, List.map_singleton, Named.register_eq sound]
      rfl
  | constant | distance | noConstant | amount | upper | target =>
      cases reads <;> cases writes <;> exact ⟨rfl, rfl⟩

/-- The registers that parts cause to be read. -/
def readNames : List Part → List Access → List Named
  | [], _ => []
  | part :: parts, [] => part.readNames .none ++ readNames parts []
  | part :: parts, access :: accesses =>
    part.readNames access ++ readNames parts accesses

/-- The registers that parts cause to be written. -/
def writeNames : List Part → List Access → List Named
  | [], _ => []
  | part :: parts, [] => part.writeNames .none ++ writeNames parts []
  | part :: parts, access :: accesses =>
    part.writeNames access ++ writeNames parts accesses

theorem flatMap_mentions_eq
    {parts : List Part}
    {operands : List Operand}
    (means : List.Forall₂ (Part.Means xlen word) parts operands)
    (sound : ∀ part ∈ parts, part.isSound)
    (accesses : List Access) :
    (OpcodeInfo.accessOperands operands accesses).flatMap
          AccessedOperand.reads =
        (readNames parts accesses).map (Named.register xlen word.value) ∧
      (OpcodeInfo.accessOperands operands accesses).flatMap
          AccessedOperand.writes =
        (writeNames parts accesses).map (Named.register xlen word.value) := by
  induction means generalizing accesses with
  | nil => exact ⟨rfl, rfl⟩
  | cons first rest induction =>
      rw [List.forall_mem_cons] at sound
      cases accesses with
      | nil =>
          rcases first.mentions_eq sound.1 .none with ⟨reads, writes⟩
          rcases induction sound.2 [] with ⟨moreReads, moreWrites⟩
          simp only [OpcodeInfo.accessOperands, List.flatMap_cons, readNames,
            writeNames, List.map_append, reads, writes, moreReads,
            moreWrites, and_self]
      | cons access accesses =>
          rcases first.mentions_eq sound.1 access with ⟨reads, writes⟩
          rcases induction sound.2 accesses with ⟨moreReads, moreWrites⟩
          simp only [OpcodeInfo.accessOperands, List.flatMap_cons, readNames,
            writeNames, List.map_append, reads, writes, moreReads,
            moreWrites, and_self]

end Mentions

/-! ## Instructions -/

/-- The names of implicit registers. -/
def implicitNames (registers : List Register) : List Named :=
  registers.map fun register => .fixed register.id

namespace Opcode

/-- The registers that an instruction of the parts reads. -/
def readNames (opcode : Opcode) (parts : List Part) : List Named :=
  RiscV.readNames parts opcode.info.access ++
    implicitNames opcode.info.implicitReads

/-- The registers that an instruction of the parts writes. -/
def writeNames (opcode : Opcode) (parts : List Part) : List Named :=
  RiscV.writeNames parts opcode.info.access ++
    implicitNames opcode.info.implicitWrites

/-- Whether all implicit registers are integer registers. -/
def impliesIntegers (opcode : Opcode) : Bool :=
  (opcode.info.implicitReads ++ opcode.info.implicitWrites).all
    fun register => register.kind = .general

/-- Whether an instruction of the parts names registers that there are. -/
def namesSoundly (opcode : Opcode) (parts : List Part) : Bool :=
  (opcode.readNames parts ++ opcode.writeNames parts).all fun named =>
    named.isIn named.bank

end Opcode

theorem Named.owns
    {bank : Bank}
    {named : Named}
    (inside : named.isIn bank)
    (xlen : Xlen)
    (parcel : Nat) :
    xlen.Owns (named.register xlen parcel) :=
  ⟨bank, named.number parcel, named.number_lt inside parcel,
    named.register_eq inside xlen parcel⟩

/-- The registers that sound parts give are those of the instruction set. -/
theorem Part.ownsOperand
    {part : Part}
    (sound : part.isSound)
    (xlen : Xlen)
    (address : Address)
    (parcel : Nat) :
    xlen.OwnsOperand (part.operand xlen address parcel) := by
  intro register same
  cases part with
  | register named =>
      cases same
      exact Named.owns sound xlen parcel
  | _ => cases same

theorem map_atWidth_eq
    (xlen : Xlen)
    (parcel : Nat)
    {registers : List Register}
    (integers : ∀ register ∈ registers, register.kind = .general) :
    registers.map (atWidth xlen) =
      (implicitNames registers).map (Named.register xlen parcel) := by
  rw [implicitNames, List.map_map]
  refine List.map_congr_left ?_
  intro register member
  have kind := integers register member
  rcases register with ⟨architecture, _, id, size⟩
  cases kind
  rfl

section Instructions

variable {xlen : Xlen} {word : Word} {opcode : Opcode}

theorem mentions_eq
    {parts : List Part}
    {operands : List Operand}
    (means : List.Forall₂ (Part.Means xlen word) parts operands)
    (sound : ∀ part ∈ parts, part.isSound)
    (integers : opcode.impliesIntegers)
    (mode : Option RoundingMode) :
    (opcode.detail xlen operands (.riscV mode)).readMentions =
        (opcode.readNames parts).map (Named.register xlen word.value) ∧
      (opcode.detail xlen operands (.riscV mode)).writeMentions =
        (opcode.writeNames parts).map (Named.register xlen word.value) := by
  rcases flatMap_mentions_eq means sound opcode.info.access with
    ⟨reads, writes⟩
  have general := fun register member =>
    of_decide_eq_true (List.all_eq_true.mp integers register member)
  have implicitReads :=
    @map_atWidth_eq xlen word.value opcode.info.implicitReads
      fun register member => general register (List.mem_append_left _ member)
  have implicitWrites :=
    @map_atWidth_eq xlen word.value opcode.info.implicitWrites
      fun register member => general register (List.mem_append_right _ member)
  constructor
  · rw [Opcode.readNames, List.map_append, ← reads, ← implicitReads]
    exact congrArg (· ++ _) (List.append_nil _)
  · rw [Opcode.writeNames, List.map_append, ← writes, ← implicitWrites]
    rfl

theorem ownsMentions
    {parts : List Part}
    {operands : List Operand}
    (means : List.Forall₂ (Part.Means xlen word) parts operands)
    (sound : ∀ part ∈ parts, part.isSound)
    (integers : opcode.impliesIntegers)
    (soundNames : opcode.namesSoundly parts)
    (mode : Option RoundingMode) :
    xlen.OwnsMentions (opcode.detail xlen operands (.riscV mode)) := by
  rcases mentions_eq means sound integers mode with ⟨reads, writes⟩
  intro register _ mentioned
  rw [reads, writes, ← List.mem_append, ← List.map_append] at mentioned
  rcases List.mem_map.mp mentioned with ⟨named, listed, rfl⟩
  exact Named.owns (List.all_eq_true.mp soundNames named listed) xlen
    word.value

/-- Whether the names on the left, but zero, are among those on the right. -/
def covers (left right : List Named) : Bool :=
  left.all fun named => named = .fixed zeroRegister || right.contains named

theorem mem_of_covers
    {left right : List Named}
    (covered : covers left right)
    {register : Register}
    (counts : register.id ≠ zeroRegister)
    (member : register ∈ left.map (Named.register xlen word.value)) :
    register ∈ right.map (Named.register xlen word.value) := by
  rcases List.mem_map.mp member with ⟨named, listed, rfl⟩
  have either := List.all_eq_true.mp covered named listed
  rw [Bool.or_eq_true, decide_eq_true_eq, List.contains_iff_mem] at either
  rcases either with rfl | also
  · exact absurd rfl counts
  · exact List.mem_map_of_mem also

/-- Whether two instructions touch the same names, apart from zero. -/
def sameNames
    (left : Opcode)
    (leftParts : List Part)
    (right : Opcode)
    (rightParts : List Part) :
    Bool :=
  covers (left.readNames leftParts) (right.readNames rightParts) &&
    covers (right.readNames rightParts) (left.readNames leftParts) &&
    covers (left.writeNames leftParts) (right.writeNames rightParts) &&
    covers (right.writeNames rightParts) (left.writeNames leftParts)

/-- Instructions that touch the same names touch the same registers. -/
theorem sameTouches_of_sameNames
    {left right : Opcode}
    {leftParts rightParts : List Part}
    (same : sameNames left leftParts right rightParts)
    (leftIntegers : left.impliesIntegers)
    (rightIntegers : right.impliesIntegers)
    (leftSound : ∀ part ∈ leftParts, part.isSound)
    (rightSound : ∀ part ∈ rightParts, part.isSound)
    {leftOperands rightOperands : List Operand}
    (leftMeans :
      List.Forall₂ (Part.Means xlen word) leftParts leftOperands)
    (rightMeans :
      List.Forall₂ (Part.Means xlen word) rightParts rightOperands)
    (mode : Option RoundingMode) :
    SameTouches (left.detail xlen leftOperands (.riscV mode))
      (right.detail xlen rightOperands (.riscV mode)) := by
  simp only [sameNames, Bool.and_eq_true] at same
  rcases same with ⟨⟨⟨reads, readsBack⟩, writes⟩, writesBack⟩
  rcases mentions_eq leftMeans leftSound leftIntegers mode with
    ⟨leftReads, leftWrites⟩
  rcases mentions_eq rightMeans rightSound rightIntegers mode with
    ⟨rightReads, rightWrites⟩
  intro register counts
  rw [leftReads, leftWrites, rightReads, rightWrites]
  exact ⟨⟨mem_of_covers reads counts, mem_of_covers readsBack counts⟩,
    mem_of_covers writes counts, mem_of_covers writesBack counts⟩

end Instructions

end MachineCode.RiscV
