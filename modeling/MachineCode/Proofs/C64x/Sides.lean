import MachineCode.Proofs.C64x.AccessList
import MachineCode.Proofs.C64x.Layout

/-!
# The sides of C64x operands

The detail record of an instruction announces the side of its unit, the data
path of an access and the use of the cross path. The operands lie in the files
of these sides (`Announces`): the units .L, .S and .M fetch their second
source over the cross path or nothing, the units .D use none, and the two
halves of a pair are never apart.
-/

namespace MachineCode.C64x

/-! ## What is announced -/

/-- The file of a written side. -/
def fileOf : Nat → RegisterFile
  | 1 => fileA
  | _ => fileB

/-- The written side across from one. -/
def otherSide : Nat → Nat
  | 1 => 2
  | _ => 1

/-- Whether all registers of an operand are of a written side. -/
def IsOn (side : Nat) (operand : Operand) : Prop :=
  ∀ register ∈ operand.mentions, some register ∈ (fileOf side).entries

/-- Whether all general registers of an operand are of a written side. -/
def LiesOn (side : Nat) (operand : Operand) : Prop :=
  ∀ register ∈ operand.mentions,
    register.kind = .general → some register ∈ (fileOf side).entries

/--
Whether one operand is the second source, from the other side, and all others
are of a side.
-/
def OneCrosses (side value : Nat) (operands : List Operand) : Prop :=
  ∃ before source after,
    operands = before ++ .register source :: after ∧
      (fileOf (otherSide side)).get? (bitField value 18 5) = some source ∧
      ∀ operand ∈ before ++ after, LiesOn side operand

/-- Whether registers are an odd one and the even one that comes before it. -/
def IsPair (registers : List Register) : Prop :=
  ∃ low : Register,
    low.id % 2 = 0 ∧ registers = [{ low with id := low.id + 1 }, low]

/-- The opcodes that load or store. -/
def Opcode.isAccess (opcode : Opcode) : Bool :=
  opcode.info.operation = .load || opcode.info.operation = .store

/-- What a detail record announces of the operands of an opcode. -/
structure Announces
    (opcode : Opcode)
    (value : Nat)
    (facts : C64xSpecifics)
    (operands : List Operand) :
    Prop where
  /-- A unit has one of two sides. -/
  sided : facts.unit ≠ .none → facts.side = 1 ∨ facts.side = 2
  /-- The units with a cross path. -/
  arithmetic :
    facts.unit = .l ∨ facts.unit = .s ∨ facts.unit = .m →
      if facts.crossPath then OneCrosses facts.side value operands
      else ∀ operand ∈ operands, LiesOn facts.side operand
  /-- The units .D, when they do not access memory. -/
  address :
    facts.unit = .d → opcode.isAccess = false →
      facts.crossPath = false ∧
        ∀ operand ∈ operands, IsOn facts.side operand
  /-- Loads and stores. -/
  access :
    opcode.isAccess →
      facts.crossPath = false ∧
        ∃ path reference data,
          facts.dataPath = some path ∧
            (path = 1 ∨ path = 2) ∧
            (operands = [.memory reference, data] ∨
              operands = [data, .memory reference]) ∧
            IsOn facts.side (.memory reference) ∧
            (data.kind = .register ∨ data.kind = .registers) ∧
            IsOn path data
  pairs : ∀ list, .registers list ∈ operands → IsPair list.registers
  /-- The text of the unit tells whether the cross path is used. -/
  text : (unitText facts).toList.getLast? = some 'X' ↔ facts.crossPath

/-! ## Files -/

/-- Whether an operand lies on a side, with both halves if it is a pair. -/
def FitsOn (side : Nat) (operand : Operand) : Prop :=
  LiesOn side operand ∧
    ∀ list, .registers list = operand → IsPair list.registers

/-- Whether an operand is what an access moves over the path of a side. -/
structure IsData (side : Nat) (operand : Operand) : Prop where
  kind_eq : operand.kind = .register ∨ operand.kind = .registers
  isOn : IsOn side operand
  isPair : ∀ list, .registers list = operand → IsPair list.registers

section Files

variable {side number : Nat}

theorem get?_fileOf
    (known : side < 2)
    (small : number < 32) :
    (fileOf (side + 1)).get? number = some (generalOf side number) := by
  have each : side = 0 ∨ side = 1 := by omega
  rcases each with rfl | rfl
  · exact RegisterFile.get?_sequential small
  · exact RegisterFile.get?_sequential small

theorem mem_fileOf
    (known : side < 2)
    (small : number < 32) :
    some (generalOf side number) ∈ (fileOf (side + 1)).entries := by
  have found := get?_fileOf known small
  rw [RegisterFile.get?, Option.join_eq_some_iff] at found
  exact List.mem_of_getElem? found

theorem IsOn.liesOn
    {operand : Operand}
    (isOn : IsOn side operand) :
    LiesOn side operand :=
  fun register member _ => isOn register member

theorem isOn_general
    (known : side < 2)
    (small : number < 32) :
    IsOn (side + 1) (.register (generalOf side number)) := by
  intro register member
  cases List.mem_singleton.mp member
  exact mem_fileOf known small

theorem isOn_pairOf
    (known : side < 2)
    (small : number < 32)
    (even : number % 2 = 0) :
    IsOn (side + 1) (pairOf side number) := by
  intro register member
  change register ∈ [_, _] at member
  rw [List.mem_cons, List.mem_singleton] at member
  rcases member with rfl | rfl
  · exact mem_fileOf known (by omega)
  · exact mem_fileOf known small

theorem isOn_of_silent
    {operand : Operand}
    (silent : operand.mentions = []) :
    IsOn side operand := by
  intro register member
  rw [silent] at member
  cases member

theorem isPair_pairOf
    (even : number % 2 = 0)
    {list : RegisterList}
    (same : .registers list = pairOf side number) :
    IsPair list.registers := by
  cases same
  refine ⟨generalOf side number, ?_, rfl⟩
  change (32 * side + number) % 2 = 0
  omega

/-- What is no pair fits where its registers are. -/
theorem IsOn.fitsOn
    {operand : Operand}
    (isOn : IsOn side operand)
    (single : ∀ list, .registers list ≠ operand) :
    FitsOn side operand :=
  ⟨isOn.liesOn, fun list same => absurd same (single list)⟩

theorem isData_pairOf
    (known : side < 2)
    (small : number < 32)
    (even : number % 2 = 0) :
    IsData (side + 1) (pairOf side number) where
  kind_eq := .inr rfl
  isOn := isOn_pairOf known small even
  isPair := fun _ => isPair_pairOf even

/-- A control register is in neither file. -/
theorem fitsOn_control
    {control : Register}
    (found : controlFile.find number = .ok control) :
    FitsOn side (.register control) := by
  have each :
      ∀ entry ∈ controlFile.entries, ∀ register ∈ entry,
        register.kind = .control := by
    decide
  constructor
  · intro register member isGeneral
    cases List.mem_singleton.mp member
    rw [RegisterFile.find] at found
    split at found
    · next known =>
      cases found
      rw [RegisterFile.get?, Option.join_eq_some_iff] at known
      rw [each _ (List.mem_of_getElem? known) _ rfl] at isGeneral
      cases isGeneral
    · cases found
  · intro list same
    cases same

end Files

/-! ## Parts of a word -/

section Parts

variable {value : Nat}

theorem isOn_nearRegister (start : Nat) :
    IsOn (bitField value 1 1 + 1) (.register (nearRegister value start)) :=
  isOn_general (bitField_lt ..) (bitField_lt ..)

theorem isOn_operandOf (source : FirstSource) :
    IsOn (bitField value 1 1 + 1) (source.operandOf value) := by
  cases source with
  | register => exact isOn_nearRegister 13
  | signed | unsigned => exact isOn_of_silent rfl

theorem fitsOn_nearRegister (start : Nat) :
    FitsOn (bitField value 1 1 + 1) (.register (nearRegister value start)) :=
  (isOn_nearRegister start).fitsOn nofun

theorem fitsOn_operandOf (source : FirstSource) :
    FitsOn (bitField value 1 1 + 1) (source.operandOf value) := by
  apply (isOn_operandOf source).fitsOn
  cases source <;> exact nofun

theorem isData_nearRegister (start : Nat) :
    IsData (bitField value 1 1 + 1)
      (.register (nearRegister value start)) where
  kind_eq := .inl rfl
  isOn := isOn_nearRegister start
  isPair := nofun

theorem fitsOn_nearPair
    {start : Nat}
    (even : bitField value start 5 % 2 = 0) :
    FitsOn (bitField value 1 1 + 1) (nearPair value start) :=
  ⟨(isOn_pairOf (bitField_lt ..) (bitField_lt ..) even).liesOn,
    fun _ => isPair_pairOf even⟩

/-- A second source that does not cross is on the unit's own side. -/
theorem fitsOn_secondSource (near : value.testBit 12 = false) :
    FitsOn (bitField value 1 1 + 1) (.register (secondSource value)) := by
  rw [secondSource, near, sourceSide_false]
  exact fitsOn_nearRegister 18

/-- A second source that crosses is from the other side. -/
theorem get?_secondSource (crossed : value.testBit 12 = true) :
    (fileOf (otherSide (bitField value 1 1 + 1))).get?
        (bitField value 18 5) =
      some (secondSource value) := by
  have known := bitField_lt value 1 1
  have small := bitField_lt value 18 5
  have each : bitField value 1 1 = 0 ∨ bitField value 1 1 = 1 := by omega
  rw [secondSource, crossed]
  rcases each with zero | one
  · rw [zero]
    exact get?_fileOf (show 1 < 2 by decide) small
  · rw [one]
    exact get?_fileOf (show 0 < 2 by decide) small

/-- A reference has its base and its index on the side of the unit. -/
theorem isOn_referenceOf
    (mode : AddressingMode)
    (size scale : Nat) :
    IsOn (bitField value 7 1 + 1)
      (.memory (mode.referenceOf value size scale)) := by
  have known := bitField_lt value 7 1
  rw [AddressingMode.referenceOf]
  intro register member
  split at member
  · change register ∈ [_, _] at member
    rw [List.mem_cons, List.mem_singleton] at member
    rcases member with rfl | rfl <;> exact mem_fileOf known (bitField_lt ..)
  · change register ∈ [_] at member
    cases List.mem_singleton.mp member
    exact mem_fileOf known (bitField_lt ..)

theorem isOn_farReference (size : Nat) :
    IsOn 2 (.memory (farReference value size)) := by
  have small := bitField_lt value 7 1
  intro register member
  cases List.mem_singleton.mp member
  exact mem_fileOf (show 1 < 2 by decide) (by omega)

end Parts

/-! ## Units -/

/-- The text of a unit ends in the sign for the cross path or in a side. -/
theorem getLast?_unitText
    {facts : C64xSpecifics}
    (occupied : facts.unit ≠ .none)
    (sided : facts.side = 1 ∨ facts.side = 2)
    (paths : ∀ path ∈ facts.dataPath, path = 1 ∨ path = 2) :
    (unitText facts).toList.getLast? = some 'X' ↔
      facts.crossPath = true := by
  have digit (side : Nat) (known : side = 1 ∨ side = 2) (before : String) :
      (before ++ toString side).toList.getLast? ≠ some 'X' := by
    have each :
        (toString 1).toList.getLast? = some '1' ∧
          (toString 2).toList.getLast? = some '2' := by
      decide
    rw [String.toList_append, List.getLast?_append]
    rcases known with rfl | rfl
    · rw [each.1, Option.some_or]
      decide
    · rw [each.2, Option.some_or]
      decide
  rw [unitText, if_neg occupied]
  cases facts.crossPath with
  | true =>
      rw [if_pos rfl, String.toList_append, List.getLast?_append]
      simp
  | false =>
      simp only [Bool.false_eq_true, if_false, iff_false, String.append_empty]
      cases carried : facts.dataPath with
      | none =>
          rw [String.append_empty]
          exact digit facts.side sided _
      | some path =>
          rw [← String.append_assoc]
          exact digit path (paths path carried) _

/-- An occupied unit is on side 1 or 2. -/
theorem Slot.writtenSide_eq
    (slot : Slot)
    (occupied : slot.unit ≠ .none)
    (known : slot.side < 2) :
    slot.writtenSide = slot.side + 1 := by
  rw [writtenSide, if_neg occupied, Nat.mod_eq_of_lt known]

section Units

variable
  {opcode : Opcode}
  {word : Word}
  {under : Option Predicate}

/-- Without a path to the other side all operands are on the unit's own. -/
theorem announces_nearSlot
    {unit : FunctionalUnit}
    (occupied : unit ≠ .none)
    (computes : opcode.isAccess = false)
    {operands : List Operand}
    (near :
      ∀ operand ∈ operands, FitsOn (bitField word.value 1 1 + 1) operand)
    (general :
      unit = .d →
        ∀ operand ∈ operands, IsOn (bitField word.value 1 1 + 1) operand) :
    Announces opcode word.value
      ((nearSlot unit word.value).factsUnder word under) operands := by
  have known := bitField_lt word.value 1 1
  have side :
      ((nearSlot unit word.value).factsUnder word under).side =
        bitField word.value 1 1 + 1 :=
    (nearSlot unit word.value).writtenSide_eq occupied known
  constructor
  case sided =>
    intro _
    omega
  case arithmetic =>
    intro _
    rw [side]
    exact fun operand member => (near operand member).1
  case address =>
    intro isD _
    rw [side]
    exact ⟨rfl, general isD⟩
  case access =>
    intro accesses
    rw [computes] at accesses
    cases accesses
  case pairs =>
    intro list member
    exact (near _ member).2 list rfl
  case text =>
    refine getLast?_unitText occupied (by omega) ?_
    intro path found
    cases found

/-- Over the cross path comes the second source or nothing. -/
theorem announces_crossSlot
    {unit : FunctionalUnit}
    (crosses : unit = .l ∨ unit = .s ∨ unit = .m)
    (computes : opcode.isAccess = false)
    (before : List Operand)
    {after : List Operand}
    (near :
      ∀ operand ∈ before ++ after,
        FitsOn (bitField word.value 1 1 + 1) operand) :
    Announces opcode word.value
      ((crossSlot unit word.value).factsUnder word under)
      (before ++ .register (secondSource word.value) :: after) := by
  have occupied : unit ≠ .none := by
    rintro rfl
    rcases crosses with impossible | impossible | impossible <;>
      cases impossible
  have among {operand : Operand}
      (member :
        operand ∈ before ++ .register (secondSource word.value) :: after) :
      operand = .register (secondSource word.value) ∨
        operand ∈ before ++ after := by
    rw [List.mem_append, List.mem_cons] at member
    rw [List.mem_append]
    exact or_left_comm.mp member
  cases crossed : word.value.testBit 12 with
  | false =>
      have slot : crossSlot unit word.value = nearSlot unit word.value := by
        rw [crossSlot, crossed]
        rfl
      rw [slot]
      apply announces_nearSlot occupied computes
      · intro operand member
        rcases among member with rfl | other
        · exact fitsOn_secondSource crossed
        · exact near operand other
      · intro isD
        rcases crosses with other | other | other <;>
          cases other.symm.trans isD
  | true =>
      have known := bitField_lt word.value 1 1
      have side :
          ((crossSlot unit word.value).factsUnder word under).side =
            bitField word.value 1 1 + 1 :=
        (crossSlot unit word.value).writtenSide_eq occupied known
      have path :
          ((crossSlot unit word.value).factsUnder word under).crossPath =
            true :=
        crossed
      constructor
      case sided =>
        intro _
        omega
      case arithmetic =>
        intro _
        rw [side, if_pos path]
        exact
          ⟨before, secondSource word.value, after, rfl,
            get?_secondSource crossed,
            fun operand member => (near operand member).1⟩
      case address =>
        intro isD
        rcases crosses with other | other | other <;>
          cases other.symm.trans isD
      case access =>
        intro accesses
        rw [computes] at accesses
        cases accesses
      case pairs =>
        intro list member
        rcases among member with impossible | other
        · cases impossible
        · exact (near _ other).2 list rfl
      case text =>
        refine getLast?_unitText occupied (by omega) ?_
        intro path found
        cases found

/-- An instruction without a unit has no registers. -/
theorem announces_unoccupied
    (computes : opcode.isAccess = false)
    {operands : List Operand}
    (single : ∀ list, .registers list ∉ operands) :
    Announces opcode word.value
      (Slot.factsUnder { unit := .none } word under) operands := by
  constructor
  case sided => exact fun occupied => absurd rfl occupied
  case arithmetic =>
    rintro (impossible | impossible | impossible) <;> cases impossible
  case address =>
    intro impossible
    cases impossible
  case access =>
    intro accesses
    rw [computes] at accesses
    cases accesses
  case pairs => exact fun list member => absurd member (single list)
  case text =>
    constructor
    · intro ends
      cases ends
    · intro crossed
      cases crossed

/-- The reference of an access is on its side, the data on its path. -/
theorem announces_access
    {slot : Slot}
    (isD : slot.unit = .d)
    (known : slot.side < 2)
    (near : slot.crossed = false)
    (carried : slot.dataSide = some (bitField word.value 1 1))
    (accesses : opcode.isAccess)
    (direction : Direction)
    {reference : MemoryReference}
    {data : Operand}
    (addressed : IsOn (slot.side + 1) (.memory reference))
    (moved : IsData (bitField word.value 1 1 + 1) data) :
    Announces opcode word.value (slot.factsUnder word under)
      (direction.operands (.memory reference) data) := by
  have small := bitField_lt word.value 1 1
  have occupied : slot.unit ≠ .none := by
    rw [isD]
    decide
  have side : (slot.factsUnder word under).side = slot.side + 1 :=
    slot.writtenSide_eq occupied known
  have path :
      (slot.factsUnder word under).dataPath =
        some (bitField word.value 1 1 + 1) := by
    rw [Slot.factsUnder, carried]
    rfl
  constructor
  case sided =>
    intro _
    omega
  case arithmetic =>
    rintro (other | other | other) <;> cases isD.symm.trans other
  case address =>
    intro _ computes
    rw [accesses] at computes
    cases computes
  case access =>
    intro _
    refine ⟨near, bitField word.value 1 1 + 1, reference, data, path,
      by omega, ?_, side ▸ addressed, moved.kind_eq, moved.isOn⟩
    cases direction with
    | load => exact .inl rfl
    | store => exact .inr rfl
  case pairs =>
    intro list member
    apply moved.isPair
    cases direction <;> simpa [Direction.operands] using member
  case text =>
    refine getLast?_unitText occupied (by omega) ?_
    intro found isFound
    rw [path] at isFound
    cases isFound
    omega

end Units

/-! ## Formats -/

/-- The formats of loads and stores. -/
def Format.isAccess : Format → Bool
  | .load1 | .load2 | .load4 | .load8 | .store1 | .store2 | .store4 | .store8
  | .loadUnaligned8 | .storeUnaligned8 | .loadFar1 | .loadFar2 | .loadFar4
  | .storeFar1 | .storeFar2 | .storeFar4 =>
    true
  | _ => false

/-- Whether what has been read announces its operands. -/
def ReadsAnnounced (opcode : Opcode) (value : Nat) (result : Reading) :
    Prop :=
  ∃ facts,
    result.specifics = .c64x facts ∧
      Announces opcode value facts result.operands

theorem ReadsAnnounced.of_announces
    {opcode : Opcode}
    {value : Nat}
    {facts : C64xSpecifics}
    {operands : List Operand}
    (announces : Announces opcode value facts operands) :
    ReadsAnnounced opcode value (reading facts operands) :=
  ⟨facts, rfl, announces⟩

section Formats

variable
  {opcode : Opcode}
  {word : Word}
  {result : Reading}
  (four : word.size = 4)
include four

section Computing

variable (computes : opcode.isAccess = false)
include computes

theorem announces_readBinary
    {unit : FunctionalUnit}
    (crosses : unit = .l ∨ unit = .s ∨ unit = .m)
    {source : FirstSource}
    (read : readBinary unit source word = .ok result) :
    ReadsAnnounced opcode word.value result := by
  rcases exists_of_readBinary four read with ⟨under, rfl⟩
  apply ReadsAnnounced.of_announces
  apply announces_crossSlot crosses computes [_]
  simp [fitsOn_operandOf, fitsOn_nearRegister]

theorem announces_readLong
    {pairSource : Bool}
    (read : readLong pairSource word = .ok result) :
    ReadsAnnounced opcode word.value result := by
  cases pairSource with
  | false =>
      rcases exists_of_readLong_register four read with ⟨under, even, rfl⟩
      apply ReadsAnnounced.of_announces
      apply announces_crossSlot (.inl rfl) computes [_]
      simp [fitsOn_nearRegister, fitsOn_nearPair even]
  | true =>
      rcases exists_of_readLong_pair four read with
        ⟨under, even, evenToo, rfl⟩
      apply ReadsAnnounced.of_announces
      refine announces_nearSlot (by decide) computes ?_ nofun
      simp [fitsOn_nearRegister, fitsOn_nearPair even,
        fitsOn_nearPair evenToo]

theorem announces_readUnary
    (read : readUnary word = .ok result) :
    ReadsAnnounced opcode word.value result := by
  rcases exists_of_readUnary four read with ⟨under, rfl⟩
  apply ReadsAnnounced.of_announces
  apply announces_crossSlot (.inl rfl) computes []
  simp [fitsOn_nearRegister]

theorem announces_readShift
    {amount : FirstSource}
    (read : readShift amount word = .ok result) :
    ReadsAnnounced opcode word.value result := by
  rcases exists_of_readShift four read with ⟨under, rfl⟩
  apply ReadsAnnounced.of_announces
  apply announces_crossSlot (.inr (.inl rfl)) computes []
  simp [fitsOn_operandOf, fitsOn_nearRegister]

theorem announces_readAddress
    {source : FirstSource}
    (read : readAddress source word = .ok result) :
    ReadsAnnounced opcode word.value result := by
  rcases exists_of_readAddress four read with ⟨under, rfl⟩
  apply ReadsAnnounced.of_announces
  apply announces_nearSlot (by decide) computes
  · simp [fitsOn_operandOf, fitsOn_nearRegister]
  · intro _
    simp [isOn_operandOf, isOn_nearRegister]

theorem announces_readConstant
    {constant : Nat → Operand}
    (fits : ∀ side bits, FitsOn side (constant bits))
    (read : readConstant constant word = .ok result) :
    ReadsAnnounced opcode word.value result := by
  rcases exists_of_readConstant four read with ⟨under, rfl⟩
  apply ReadsAnnounced.of_announces
  refine announces_nearSlot (by decide) computes ?_ nofun
  simp [fits, fitsOn_nearRegister]

theorem announces_readBranch
    (read : readBranch word = .ok result) :
    ReadsAnnounced opcode word.value result := by
  rcases exists_of_readBranch four read with ⟨under, rfl⟩
  apply ReadsAnnounced.of_announces
  refine announces_nearSlot (by decide) computes ?_ nofun
  rw [List.forall_mem_singleton]
  exact (isOn_of_silent rfl).fitsOn nofun

theorem announces_readBranchRegister
    (read : readBranchRegister word = .ok result) :
    ReadsAnnounced opcode word.value result := by
  rcases exists_of_readBranchRegister four read with ⟨under, rfl⟩
  apply ReadsAnnounced.of_announces
  apply announces_crossSlot (.inr (.inl rfl)) computes []
  simp

theorem announces_readBranchReturn
    (read : readBranchReturn word = .ok result) :
    ReadsAnnounced opcode word.value result := by
  rcases exists_of_readBranchReturn four read with
    ⟨under, pointer, found, rfl⟩
  apply ReadsAnnounced.of_announces
  refine announces_nearSlot (by decide) computes ?_ nofun
  simp [fitsOn_control found]

theorem announces_readMoveToControl
    (read : readMoveToControl word = .ok result) :
    ReadsAnnounced opcode word.value result := by
  rcases exists_of_readMoveToControl four read with
    ⟨under, control, found, rfl⟩
  apply ReadsAnnounced.of_announces
  apply announces_crossSlot (.inr (.inl rfl)) computes []
  simp [fitsOn_control found]

theorem announces_readMoveFromControl
    (read : readMoveFromControl word = .ok result) :
    ReadsAnnounced opcode word.value result := by
  rcases exists_of_readMoveFromControl four read with
    ⟨under, control, found, rfl⟩
  apply ReadsAnnounced.of_announces
  refine announces_nearSlot (by decide) computes ?_ nofun
  simp [fitsOn_control found, fitsOn_nearRegister]

theorem announces_readNop
    (read : readNop word = .ok result) :
    ReadsAnnounced opcode word.value result := by
  simp (disch := decide) only [readNop, field_eq_ok_of_size four, ok_bind]
    at read
  split at read
  · cases read
  · rcases Slot.exists_of_facts four read with ⟨under, same⟩
    cases same
    apply ReadsAnnounced.of_announces
    apply announces_unoccupied computes
    simp [Operand.unsigned]

theorem announces_readIdle
    (read : readIdle word = .ok result) :
    ReadsAnnounced opcode word.value result := by
  rcases Slot.exists_of_facts four read with ⟨under, same⟩
  cases same
  apply ReadsAnnounced.of_announces
  apply announces_unoccupied computes
  simp

end Computing

section Accessing

variable (accesses : opcode.isAccess)
include accesses

theorem announces_readAccess
    {direction : Direction}
    {size : Nat}
    (read : readAccess direction size word = .ok result) :
    ReadsAnnounced opcode word.value result := by
  rcases exists_of_readAccess four read with
    ⟨under, mode, found, even, rfl⟩
  apply ReadsAnnounced.of_announces
  apply announces_access rfl (bitField_lt ..) rfl rfl accesses direction
    (isOn_referenceOf mode size size)
  split
  · next double =>
    exact isData_pairOf (bitField_lt ..) (bitField_lt ..) (even double)
  · exact isData_nearRegister 23

theorem announces_readUnalignedDouble
    {direction : Direction}
    (read : readUnalignedDouble direction word = .ok result) :
    ReadsAnnounced opcode word.value result := by
  rcases exists_of_readUnalignedDouble four read with
    ⟨under, mode, found, rfl⟩
  have small := bitField_lt word.value 24 4
  apply ReadsAnnounced.of_announces
  apply announces_access rfl (bitField_lt ..) rfl rfl accesses direction
    (isOn_referenceOf mode _ _)
  exact isData_pairOf (bitField_lt ..) (by omega) (by omega)

theorem announces_readFar
    {direction : Direction}
    {size : Nat}
    (read : readFar direction size word = .ok result) :
    ReadsAnnounced opcode word.value result := by
  rcases exists_of_readFar four read with ⟨under, rfl⟩
  have far : (farSlot word.value).side < 2 := Nat.one_lt_two
  apply ReadsAnnounced.of_announces
  exact announces_access rfl far rfl rfl accesses direction
    (isOn_farReference size) (isData_nearRegister 23)

end Accessing

/-- A format of an access or of a computation announces its operands. -/
theorem Format.announces_read
    {format : Format}
    (same : opcode.isAccess = format.isAccess)
    (read : format.read word = .ok result) :
    ReadsAnnounced opcode word.value result := by
  cases format with
  | nop => exact announces_readNop four same read
  | idle => exact announces_readIdle four same read
  | lRegisters | lConstant =>
      exact announces_readBinary four same (.inl rfl) read
  | sRegisters | sConstant =>
      exact announces_readBinary four same (.inr (.inl rfl)) read
  | mRegisters | mConstant =>
      exact announces_readBinary four same (.inr (.inr rfl)) read
  | lLongDestination | lLongSource =>
      exact announces_readLong four same read
  | lUnary => exact announces_readUnary four same read
  | sShift | sShiftConstant => exact announces_readShift four same read
  | moveConstant | moveHighConstant | addConstant =>
      refine announces_readConstant four same ?_ read
      intro side bits
      exact (isOn_of_silent rfl).fitsOn nofun
  | branch => exact announces_readBranch four same read
  | branchRegister => exact announces_readBranchRegister four same read
  | branchReturn => exact announces_readBranchReturn four same read
  | moveToControl => exact announces_readMoveToControl four same read
  | moveFromControl => exact announces_readMoveFromControl four same read
  | dRegisters | dConstant => exact announces_readAddress four same read
  | load1 | load2 | load4 | load8 | store1 | store2 | store4 | store8 =>
      exact announces_readAccess four same read
  | loadUnaligned8 | storeUnaligned8 =>
      exact announces_readUnalignedDouble four same read
  | loadFar1 | loadFar2 | loadFar4 | storeFar1 | storeFar2 | storeFar4 =>
      exact announces_readFar four same read

end Formats

/-! ## Decoding -/

/-- An opcode accesses memory just if the formats beside it do. -/
theorem accessesAlike_of_mem :
    ∀ entry ∈ table.entries,
      entry.fits
        (fitsNumbers fun opcode format =>
          opcode.isAccess = format.isAccess) := by
  decide +kernel

/-- The first part of a text is where the text starts. -/
theorem prefix_joinParts (first second : String) :
    first.toList <+: (joinParts first second).toList := by
  rw [joinParts]
  split
  · next empty =>
    rw [String.isEmpty_iff] at empty
    simp [empty]
  split
  · exact List.prefix_rfl
  · simp

/--
The operands of a decoded word are in the files that its detail record
announces, and its text starts with the unit that is announced.
-/
theorem exists_announces_of_decodeWord
    {options : Options}
    {word : Word}
    {decoded : Decoded}
    (success : Engine.decodeWord ⟨isa, options⟩ word true = .ok decoded) :
    ∃ raw opcode detail facts,
      Engine.decodeRaw ⟨isa, options⟩ word = .ok raw ∧
        Opcode.ofId? raw.opcode = some opcode ∧
        decoded.instruction.detail = some detail ∧
        detail.specifics = .c64x facts ∧
        (unitText facts).toList <+: decoded.instruction.operandText.toList ∧
        Announces opcode word.value facts raw.operands := by
  rcases Engine.exists_describe_of_decodeWord success with
    ⟨raw, info, read, described, rfl⟩
  rcases exists_read_of_decodeRaw accessesAlike_of_mem read with
    ⟨four, opcode, format, result, named, alike, readOperands, operands,
      specifics⟩
  rcases format.announces_read four (of_decide_eq_true alike)
    readOperands with ⟨facts, isFacts, announces⟩
  rw [isFacts] at specifics
  refine ⟨raw, opcode, _, facts, read, named, rfl, ?_, ?_,
    operands ▸ announces⟩
  · change (completeDetail (info.detail _ raw.specifics)).specifics = _
    rw [specifics]
    rfl
  · change _ <+: (render _ raw.specifics options).operandText.toList
    rw [specifics]
    exact (prefix_joinParts ..).trans (prefix_joinParts ..)

/-- The word of `add .L1X a1, b2, a3`. -/
def crossedSumWord : Word :=
  ⟨[0x01, 0x88, 0x30, 0x78], 0x1000, 0x01883078, by simp, by decide⟩

set_option maxRecDepth 20000 in
/-- The second source of a sum comes over the cross path. -/
theorem exists_announces_of_decodeWord_crossedSum :
    ∃ decoded raw opcode detail facts,
      Engine.decodeWord ⟨isa, {}⟩ crossedSumWord true = .ok decoded ∧
        decoded.instruction.operandText = ".L1X a1, b2, a3" ∧
        Engine.decodeRaw ⟨isa, {}⟩ crossedSumWord = .ok raw ∧
        Opcode.ofId? raw.opcode = some opcode ∧
        decoded.instruction.detail = some detail ∧
        detail.specifics = .c64x facts ∧
        Announces opcode crossedSumWord.value facts raw.operands := by
  obtain ⟨decoded, success, text⟩ :
      ∃ decoded,
        Engine.decodeWord ⟨isa, {}⟩ crossedSumWord true = .ok decoded ∧
          decoded.instruction.operandText = ".L1X a1, b2, a3" :=
    ⟨_, rfl, by decide⟩
  rcases exists_announces_of_decodeWord success with
    ⟨raw, opcode, detail, facts, read, named, carried, isFacts, -,
      announces⟩
  exact ⟨decoded, raw, opcode, detail, facts, success, text, read, named,
    carried, isFacts, announces⟩

end MachineCode.C64x
