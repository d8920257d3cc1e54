import MachineCode.Proofs.AccessList
import MachineCode.Proofs.C64x.RegisterNames
import MachineCode.Proofs.PreferredTouch

/-!
# The access lists of C64x opcodes

Every format reads its sources first and its destination last
(`Format.limits`), and every opcode has an access for each operand that its
formats read. The idioms leave out leading operands, or the second of three,
and their descriptions leave out the same places.
-/

namespace MachineCode.C64x

/-! ## Parts of a word -/

/-- Whether an operand has only registers of the instruction set. -/
def OwnsAll (operand : Operand) : Prop :=
  ∀ register ∈ operand.mentions, Owns register

theorem ownsAll_register {register : Register} (owned : Owns register) :
    OwnsAll (.register register) :=
  List.forall_mem_singleton.mpr owned

/-- Whether an operand of such registers can be written. -/
def IsLocation (operand : Operand) : Prop :=
  operand.kind.isWritable ∧ OwnsAll operand

theorem isLocation_register {register : Register} (owned : Owns register) :
    IsLocation (.register register) :=
  ⟨rfl, ownsAll_register owned⟩

theorem yields_general (side number : Nat) (crossed : Bool) :
    Yields Owns (general side crossed number) :=
  .of_forall fun _ => owns_of_general

theorem yields_control (number : Nat) :
    Yields Owns (controlFile.find number) :=
  .of_forall fun _ => owns_of_find_control

theorem yields_generalPair (side number : Nat) :
    Yields IsLocation (generalPair side number) := by
  refine .of_forall fun pair read => ?_
  rcases exists_of_generalPair read with ⟨list, rfl, owned⟩
  exact ⟨rfl, owned⟩

theorem yields_register (side number : Nat) (crossed : Bool) :
    Yields IsLocation (Operand.register <$> general side crossed number) :=
  .map (yields_general side number crossed) fun _ => isLocation_register

/-- A first source is a register or a constant. -/
theorem yields_operand (source : FirstSource) (side bits : Nat) :
    Yields OwnsAll (source.operand side bits) := by
  cases source with
  | register =>
      exact .bind (yields_general side bits false) fun _ owned =>
        .ok (ownsAll_register owned)
  | signed | unsigned => exact .ok fun _ member => nomatch member

/-- Whether the register of a predicate, if any, is of the set. -/
def OwnsPredicate (facts : C64xSpecifics) : Prop :=
  ∀ found ∈ facts.predicate, Owns found.register

theorem yields_predicate (word : Word) :
    Yields (fun predicate => ∀ found ∈ predicate, Owns found.register)
      (predicate word) := by
  refine .bindAny fun selected => .bindAny fun whenZero => ?_
  refine .ite (.ok fun _ member => nomatch member) ?_
  split
  · next side number _ =>
    refine .bind (yields_general side number false) fun register owned => ?_
    refine .ok fun found same => ?_
    cases same
    exact owned
  · exact .bindAny fun _ => .error _

theorem yields_facts (slot : Slot) (word : Word) :
    Yields OwnsPredicate (slot.facts word) :=
  .bind (yields_predicate word) fun _ owned =>
    .bindAny fun _ => .ok owned

/-- A reading of such facts and operands. -/
theorem suits_reading
    {facts : C64xSpecifics}
    (predicated : OwnsPredicate facts)
    {limits : List Access}
    {operands : List Operand}
    (suits : Suits Owns limits operands) :
    Yields (Reading.Suits Owns limits) (.ok (reading facts operands)) := by
  refine .ok ⟨suits, fun register member => ?_⟩
  rcases Option.map_eq_some_iff.mp (Option.mem_toList.mp member) with
    ⟨found, isPredicate, rfl⟩
  exact predicated found isPredicate

/-! ## Formats -/

/-- What an opcode may at most do to the operands of a format. -/
def Format.limits : Format → List Access
  | .idle => []
  | .nop | .branch | .branchRegister | .branchReturn => [.read]
  | .lUnary | .moveConstant | .moveHighConstant | .addConstant
  | .moveToControl | .moveFromControl | .load1 | .load2 | .load4 | .load8
  | .store1 | .store2 | .store4 | .store8 | .loadUnaligned8
  | .storeUnaligned8 | .loadFar1 | .loadFar2 | .loadFar4 | .storeFar1
  | .storeFar2 | .storeFar4 =>
    [.read, .readWrite]
  | .lRegisters | .lConstant | .lLongDestination | .lLongSource
  | .sRegisters | .sConstant | .sShift | .sShiftConstant | .mRegisters
  | .mConstant | .dRegisters | .dConstant =>
    [.read, .read, .readWrite]

section Formats

variable (word : Word)

theorem suits_readBinary (unit : FunctionalUnit) (source : FirstSource) :
    Yields (Reading.Suits Owns [.read, .read, .readWrite])
      (readBinary unit source word) := by
  refine .bindAny fun fields => .bindAny fun crossed => ?_
  refine .bind (yields_facts ..) fun facts predicated => ?_
  refine .bind (yields_operand ..) fun first owned => ?_
  refine .bind (yields_general ..) fun second ownedToo => ?_
  refine .bind (yields_general ..) fun destination written => ?_
  exact suits_reading predicated
    (.source owned (.sourceRegister ownedToo
      (.destination written (.done _))))

theorem suits_readLong (pairSource : Bool) :
    Yields (Reading.Suits Owns [.read, .read, .readWrite])
      (readLong pairSource word) := by
  refine .bindAny fun fields => .bindAny fun crossed => .ite (.error _) ?_
  refine .bind (yields_facts ..) fun facts predicated => ?_
  refine .bind (yields_general ..) fun first owned => ?_
  have rest (second : Operand) (location : IsLocation second) :
      Yields (Reading.Suits Owns [.read, .read, .readWrite])
        (do
          let destination ← generalPair fields.side fields.destination
          return reading facts [.register first, second, destination]) := by
    refine .bind (yields_generalPair ..) fun destination written => ?_
    exact suits_reading predicated
      (.sourceRegister owned (.source location.2
        (.location written.1 written.2 (.done _))))
  exact .ite (.bind (yields_generalPair ..) rest)
    (.bind (yields_register ..) rest)

theorem suits_readUnary :
    Yields (Reading.Suits Owns [.read, .readWrite]) (readUnary word) := by
  refine .bindAny fun fields => .bindAny fun crossed => ?_
  refine .bind (yields_facts ..) fun facts predicated => ?_
  refine .bind (yields_general ..) fun source owned => ?_
  refine .bind (yields_general ..) fun destination written => ?_
  exact suits_reading predicated
    (.sourceRegister owned (.destination written (.done _)))

theorem suits_readShift (amount : FirstSource) :
    Yields (Reading.Suits Owns [.read, .read, .readWrite])
      (readShift amount word) := by
  refine .bindAny fun fields => .bindAny fun crossed => ?_
  refine .bind (yields_facts ..) fun facts predicated => ?_
  refine .bind (yields_general ..) fun source owned => ?_
  refine .bind (yields_operand ..) fun amount ownedToo => ?_
  refine .bind (yields_general ..) fun destination written => ?_
  exact suits_reading predicated
    (.sourceRegister owned (.source ownedToo
      (.destination written (.done _))))

theorem suits_readAddress (source : FirstSource) :
    Yields (Reading.Suits Owns [.read, .read, .readWrite])
      (readAddress source word) := by
  refine .bindAny fun fields => ?_
  refine .bind (yields_facts ..) fun facts predicated => ?_
  refine .bind (yields_general ..) fun second owned => ?_
  refine .bind (yields_operand ..) fun first ownedToo => ?_
  refine .bind (yields_general ..) fun destination written => ?_
  exact suits_reading predicated
    (.sourceRegister owned (.source ownedToo
      (.destination written (.done _))))

theorem suits_readConstant
    {constant : Nat → Operand}
    (silent : ∀ bits, (constant bits).mentions = []) :
    Yields (Reading.Suits Owns [.read, .readWrite])
      (readConstant constant word) := by
  refine .bindAny fun bits => .bindAny fun side => ?_
  refine .bind (yields_facts ..) fun facts predicated => ?_
  refine .bindAny fun number => ?_
  refine .bind (yields_general ..) fun destination written => ?_
  exact suits_reading predicated
    (.value (silent bits) (.destination written (.done _)))

theorem suits_readNop :
    Yields (Reading.Suits Owns [.read]) (readNop word) := by
  refine .bindAny fun count => .ite (.error _) ?_
  refine .bind (yields_facts ..) fun facts predicated => ?_
  exact suits_reading predicated (.value rfl (.done _))

theorem suits_readIdle : Yields (Reading.Suits Owns []) (readIdle word) :=
  .bind (yields_facts ..) fun _ predicated =>
    suits_reading predicated (.done _)

theorem suits_readBranch :
    Yields (Reading.Suits Owns [.read]) (readBranch word) := by
  refine .bindAny fun side => ?_
  refine .bind (yields_facts ..) fun facts predicated => ?_
  exact .bindAny fun displacement =>
    suits_reading predicated (.value rfl (.done _))

theorem suits_readBranchRegister :
    Yields (Reading.Suits Owns [.read]) (readBranchRegister word) := by
  refine .bindAny fun side => .bindAny fun crossed => ?_
  refine .bind (yields_facts ..) fun facts predicated => ?_
  refine .bindAny fun number => ?_
  refine .bind (yields_general ..) fun target owned => ?_
  exact suits_reading predicated
    (.sourceRegister owned (.done _))

theorem suits_readBranchReturn :
    Yields (Reading.Suits Owns [.read]) (readBranchReturn word) := by
  refine .bindAny fun side => ?_
  refine .bind (yields_facts ..) fun facts predicated => ?_
  refine .bindAny fun number => ?_
  refine .bind (yields_control _) fun pointer owned => ?_
  exact suits_reading predicated
    (.sourceRegister owned (.done _))

theorem suits_readMoveToControl :
    Yields (Reading.Suits Owns [.read, .readWrite])
      (readMoveToControl word) := by
  refine .bindAny fun side => .bindAny fun crossed => ?_
  refine .bind (yields_facts ..) fun facts predicated => ?_
  refine .bindAny fun number => ?_
  refine .bind (yields_general ..) fun source owned => ?_
  refine .bindAny fun number => ?_
  refine .bind (yields_control _) fun control written => ?_
  exact suits_reading predicated
    (.sourceRegister owned (.destination written (.done _)))

theorem suits_readMoveFromControl :
    Yields (Reading.Suits Owns [.read, .readWrite])
      (readMoveFromControl word) := by
  refine .bindAny fun side => ?_
  refine .bind (yields_facts ..) fun facts predicated => ?_
  refine .bindAny fun number => ?_
  refine .bind (yields_control _) fun control owned => ?_
  refine .bindAny fun number => ?_
  refine .bind (yields_general ..) fun destination written => ?_
  exact suits_reading predicated
    (.sourceRegister owned (.destination written (.done _)))

/-! ### Memory -/

theorem yields_mode_reference
    (mode : AddressingMode)
    (side : Nat)
    {base : Register}
    (owned : Owns base)
    (offset size scale : Nat) :
    Yields (fun reference => OwnsAll (.memory reference))
      (mode.reference side base offset size scale) := by
  refine .ite ?_ (.ok (ownsAll_register owned))
  refine .bind (yields_general ..) fun index ownedToo => .ok ?_
  exact List.forall_mem_cons.mpr ⟨owned, ownsAll_register ownedToo⟩

/-- The memory that an access refers to. -/
theorem yields_readReference (side size scale : Nat) :
    Yields IsLocation (readReference word side size scale) := by
  refine .bindAny fun number => .bindAny fun mode => .bindAny fun number => ?_
  refine .bind (yields_general ..) fun base owned => .bindAny fun offset => ?_
  exact .bind (yields_mode_reference mode side owned ..)
    fun reference ownedAll => .ok ⟨rfl, ownedAll⟩

/-- Memory and data, of which the latter of the two may be written. -/
theorem suits_access
    {facts : C64xSpecifics}
    (predicated : OwnsPredicate facts)
    (direction : Direction)
    {memory data : Operand}
    (reference : IsLocation memory)
    (location : IsLocation data) :
    Yields (Reading.Suits Owns [.read, .readWrite])
      (.ok (reading facts (direction.operands memory data))) := by
  refine suits_reading predicated ?_
  cases direction with
  | load =>
      exact .source reference.2
        (.location location.1 location.2 (.done _))
  | store =>
      exact .source location.2
        (.location reference.1 reference.2 (.done _))

theorem suits_readAccess (direction : Direction) (size : Nat) :
    Yields (Reading.Suits Owns [.read, .readWrite])
      (readAccess direction size word) := by
  refine .bindAny fun side => .bindAny fun dataSide => ?_
  refine .bind (yields_facts ..) fun facts predicated => ?_
  refine .bind (yields_readReference ..) fun memory reference => ?_
  refine .bindAny fun number => ?_
  exact .ite
    (.bind (yields_generalPair ..) fun _ =>
      suits_access predicated direction reference)
    (.bind (yields_register ..) fun _ =>
      suits_access predicated direction reference)

theorem suits_readUnalignedDouble (direction : Direction) :
    Yields (Reading.Suits Owns [.read, .readWrite])
      (readUnalignedDouble direction word) := by
  refine .bindAny fun side => .bindAny fun dataSide => ?_
  refine .bind (yields_facts ..) fun facts predicated => ?_
  refine .bindAny fun scaled => ?_
  refine .bind (yields_readReference ..) fun memory reference => ?_
  refine .bindAny fun number => ?_
  exact .bind (yields_generalPair ..) fun _ =>
    suits_access predicated direction reference

theorem suits_readFar (direction : Direction) (size : Nat) :
    Yields (Reading.Suits Owns [.read, .readWrite])
      (readFar direction size word) := by
  refine .bindAny fun dataSide => ?_
  refine .bind (yields_facts ..) fun facts predicated => ?_
  refine .bindAny fun number => ?_
  refine .bind (yields_general ..) fun base owned => ?_
  refine .bindAny fun offset => .bindAny fun number => ?_
  refine .bind (yields_general ..) fun data ownedToo => ?_
  exact suits_access predicated direction
    ⟨rfl, ownsAll_register owned⟩ (isLocation_register ownedToo)

/-- What a format reads suits an opcode that does no more than it allows. -/
theorem Format.suits_read (format : Format) :
    Yields (Reading.Suits Owns format.limits) (format.read word) := by
  cases format with
  | nop => exact suits_readNop word
  | idle => exact suits_readIdle word
  | lRegisters | lConstant | sRegisters | sConstant | mRegisters
  | mConstant =>
      exact suits_readBinary word ..
  | lLongDestination | lLongSource => exact suits_readLong word _
  | lUnary => exact suits_readUnary word
  | sShift | sShiftConstant => exact suits_readShift word _
  | moveConstant | moveHighConstant | addConstant =>
      exact suits_readConstant word fun _ => rfl
  | branch => exact suits_readBranch word
  | branchRegister => exact suits_readBranchRegister word
  | branchReturn => exact suits_readBranchReturn word
  | moveToControl => exact suits_readMoveToControl word
  | moveFromControl => exact suits_readMoveFromControl word
  | dRegisters | dConstant => exact suits_readAddress word _
  | load1 | load2 | load4 | load8 | store1 | store2 | store4 | store8 =>
      exact suits_readAccess word ..
  | loadUnaligned8 | storeUnaligned8 =>
      exact suits_readUnalignedDouble word _
  | loadFar1 | loadFar2 | loadFar4 | storeFar1 | storeFar2 | storeFar4 =>
      exact suits_readFar word ..

end Formats

/-! ## Opcodes and idioms -/

/-- Whether an opcode does no more than the format beside it allows. -/
def isWithin (opcode format : Nat) : Bool :=
  match Opcode.ofId? opcode, Format.ofId? format with
  | some opcode, some format =>
    Access.listWithin opcode.info.access format.limits
  | _, _ => false

set_option maxRecDepth 2000 in
theorem isWithin_of_mem : ∀ entry ∈ table.entries, entry.fits isWithin := by
  decide

section Idioms

variable
  {operands reduced : List Operand}
  {first second third : Access}

theorem suits_zeroOf
    (reduces : zeroOf operands = some reduced)
    (suits : Suits Owns [first, second, third] operands) :
    Suits Owns [third] reduced := by
  unfold zeroOf at reduces
  split at reduces
  · split at reduces
    · cases reduces
      rcases suits with _ | ⟨_, _, _ | ⟨_, _, rest⟩⟩
      exact rest
    · cases reduces
  · cases reduces

theorem suits_moveOf
    (reduces : moveOf operands = some reduced)
    (suits : Suits Owns [first, first, second] operands) :
    Suits Owns [first, second] reduced := by
  unfold moveOf at reduces
  split at reduces
  · rcases suits with _ | ⟨proper, own, _ | ⟨properToo, ownToo, rest⟩⟩
    split at reduces
    · cases reduces
      exact .operand properToo ownToo rest
    · split at reduces
      · cases reduces
        exact .operand proper own rest
      · cases reduces
  · cases reduces

theorem suits_afterConstant
    {value : Int}
    (reduces : afterConstant value operands = some reduced)
    (suits : Suits Owns [first, second, third] operands) :
    Suits Owns [second, third] reduced := by
  unfold afterConstant at reduces
  split at reduces
  · split at reduces
    · cases reduces
      rcases suits with _ | ⟨_, _, rest⟩
      exact rest
    · cases reduces
  · cases reduces

theorem suits_singleCycle
    (reduces : singleCycle operands = some reduced) :
    Suits Owns [] reduced := by
  unfold singleCycle at reduces
  split at reduces
  · split at reduces
    · cases reduces
      exact .done _
    · cases reduces
  · cases reduces

end Idioms

/-- An idiom whose operands suit its opcode. -/
theorem keepsSuits_idiom
    {long short : Opcode}
    {reduce : List Operand → Option (List Operand)}
    (keeps :
      ∀ {operands reduced : List Operand},
        reduce operands = some reduced →
          Suits Owns long.info.access operands →
          Suits Owns short.info.access reduced) :
    isa.KeepsSuits Owns (fun _ => True) (idiom long short reduce) :=
  ⟨long.info, short.info, by simp [isa, idiom], by simp [isa, idiom],
    fun _ => keeps⟩

theorem keepsSuits_of_mem :
    ∀ rule ∈ isa.aliases, isa.KeepsSuits Owns (fun _ => True) rule := by
  simp only [show isa.aliases = idioms from rfl, idioms, List.forall_mem_cons]
  exact
    ⟨keepsSuits_idiom suits_zeroOf,
      keepsSuits_idiom suits_moveOf,
      keepsSuits_idiom suits_afterConstant,
      keepsSuits_idiom suits_afterConstant,
      keepsSuits_idiom fun reduces _ => suits_singleCycle reduces,
      by simp⟩

/-! ## Decoding -/

section Decoding

variable {options : Options} {word : Word}

/-- What has been decoded suits its opcode. -/
theorem exists_suits_of_decodeRaw
    {raw : RawInstruction}
    (decoded : Engine.decodeRaw ⟨isa, options⟩ word = .ok raw) :
    ∃ info,
      isa.info? raw.opcode = some info ∧
        Suits Owns info.access raw.operands ∧
        ∀ register ∈ raw.specifics.implicitReads, Owns register := by
  rcases Engine.run_of_decodeRaw (fun _ => rfl) decoded with ⟨-, ran⟩
  rcases Isa.exists_fit_of_run isWithin_of_mem ran with
    ⟨number, result, within, read, operands, specifics⟩
  unfold isWithin at within
  split at within
  · next opcode format named known =>
    have suits := (format.suits_read word).holds_of_eq_ok
      (by simpa [isa, known] using read)
    refine ⟨opcode.info, by simp [isa, named], ?_, ?_⟩
    · rw [operands]
      exact suits.operands.of_listWithin within
    · rw [specifics]
      exact suits.implicit
  · cases within

/-- No opcode touches a register without naming it. -/
theorem Opcode.implicit_eq_nil (opcode : Opcode) :
    opcode.info.implicitReads = [] ∧ opcode.info.implicitWrites = [] := by
  cases opcode <;> exact ⟨rfl, rfl⟩

/-- The last corrections to a detail record concern no register. -/
theorem unnamed_completeDetail (detail : Detail) :
    (isa.completeDetail detail).unnamed = detail.unnamed := by
  show (completeDetail detail).unnamed = _
  unfold completeDetail
  split <;> rfl

theorem operands_completeDetail (detail : Detail) :
    (isa.completeDetail detail).operands = detail.operands := by
  show (completeDetail detail).operands = _
  unfold completeDetail
  split <;> rfl

/-- A decoded instruction is described by its opcode. -/
theorem exists_isDescribed
    {decoded : Decoded}
    (success : Engine.decodeWord ⟨isa, options⟩ word true = .ok decoded) :
    ∃ info detail,
      decoded.instruction.IsDescribed isa Owns info detail := by
  refine Engine.exists_isDescribed operands_completeDetail ?_ success
  intro raw info read preferred
  rcases exists_suits_of_decodeRaw read with
    ⟨long, described, suits, predicated⟩
  refine ⟨Isa.suits_canonicalize keepsSuits_of_mem described trivial suits
    preferred, ?_⟩
  intro operands register member
  rcases Option.map_eq_some_iff.mp preferred with ⟨opcode, -, rfl⟩
  rw [unnamed_completeDetail] at member
  simp only [Detail.unnamed, OpcodeInfo.detail, opcode.implicit_eq_nil,
    List.append_nil] at member
  exact predicated register member

end Decoding

end MachineCode.C64x
