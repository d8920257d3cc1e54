import MachineCode.Proofs.AccessList
import MachineCode.Proofs.Arm64.RegisterNames
import MachineCode.Proofs.PreferredTouch

/-!
# The access lists of Arm64 opcodes

Every opcode has an access for each operand that its formats read, with the
shift that may follow a constant (`Format.limits`). Each rule for a preferred
form leaves out operands, and the description of that form leaves out the same
places (`keepsSuits_of_mem`).
-/

namespace MachineCode.Arm64

/-! ## Registers that are read -/

theorem owns_generalField (address wide : Bool) (value start : Nat) :
    Owns (generalRegister address wide (bitField value start 5)) :=
  .general address wide (bitField_five_lt value start)

theorem owns_floatField
    {precision size : Nat}
    (width : floatBits? precision = some size)
    (value start : Nat) :
    Owns (floatRegister size (bitField value start 5)) := by
  refine .float ?_ (bitField_five_lt value start)
  unfold floatBits? at width
  split at width <;> cases width <;> decide

theorem owns_of_mem_vectorList
    {first count : Nat}
    {register : Register}
    (member : register ∈ (vectorList first count).registers) :
    Owns register := by
  rcases List.mem_map.mp member with ⟨index, -, rfl⟩
  exact .vector (Nat.mod_lt _ (by decide))

/-- The base of a reference, without an index. -/
theorem owns_base
    {value start : Nat}
    {reference : MemoryReference}
    (base :
      reference.base =
        some (generalRegister true true (bitField value start 5)))
    (noIndex : reference.index = none) :
    ∀ register ∈ (Operand.memory reference).mentions, Owns register := by
  simp only [Operand.mentions, base, noIndex, Option.toList_some,
    Option.toList_none, List.append_nil, List.forall_mem_singleton]
  exact owns_generalField ..

/-- The base of a reference and its index. -/
theorem owns_baseAndIndex
    {wide : Bool}
    {value start indexStart : Nat}
    {reference : MemoryReference}
    (base :
      reference.base =
        some (generalRegister true true (bitField value start 5)))
    (index :
      reference.index =
        some (generalRegister false wide (bitField value indexStart 5))) :
    ∀ register ∈ (Operand.memory reference).mentions, Owns register := by
  simp only [Operand.mentions, base, index, Option.toList_some,
    List.singleton_append, List.forall_mem_cons]
  exact ⟨owns_generalField .., owns_generalField .., by simp⟩

/-! ## Formats -/

/-- What an opcode may at most do to the operands of a format. -/
def Format.limits : Format → List Access
  | .bare => []
  | .branch | .conditionalBranch | .branchRegister | .exception | .hint =>
    [.read]
  | .compareBranch => [.read, .read]
  | .testBranch => [.read, .read, .read]
  | .nearAddress | .fromSystem | .toSystem | .literal | .floatConstant =>
    [.readWrite, .read]
  | .unsignedOffset | .indexed | .registerOffset | .exclusive | .structures
  | .structuresUpdating =>
    [.readWrite, .readWrite]
  | .pair | .exclusiveStore => [.readWrite, .readWrite, .readWrite]
  | .logicalConstant | .wideMove | .logicalRegister | .addRegister
  | .twoSources | .floatArithmetic =>
    [.readWrite, .read, .read]
  | .addConstant | .bitfield | .extract | .select | .threeSources =>
    [.readWrite, .read, .read, .read]

/-- Facts about an instruction of this family mention no register. -/
theorem suits_reading
    {limits : List Access}
    {operands : List Operand}
    (suits : Suits Owns limits operands)
    (facts : Arm64Specifics)
    (doubtful : Bool) :
    Reading.Suits Owns limits ⟨operands, .arm64 facts, doubtful⟩ :=
  ⟨suits, fun _ member => nomatch member⟩

/-- A source that may be shifted. -/
theorem owns_shiftedOperand
    {source : Register}
    (owned : Owns source)
    (kind amount : Nat) :
    ∀ register ∈ (shiftedOperand source kind amount).mentions,
      Owns register := by
  unfold shiftedOperand
  split <;> exact List.forall_mem_singleton.mpr owned

section Readings

variable {word : Word} {result : Reading} (four : word.size = 4)
include four

theorem suits_of_readStructures
    {updates : Bool}
    (read : readStructures updates word = .ok result) :
    result.Suits Owns [.readWrite, .readWrite] := by
  rcases exists_count_of_readStructures four read with ⟨count, -, rfl⟩
  refine suits_reading
    (.location rfl (fun _ => owns_of_mem_vectorList)
      (.location rfl ?_ (.done _))) _ _
  unfold updatedReference
  split
  · split
    · exact owns_base rfl rfl
    · exact owns_baseAndIndex rfl rfl
  · exact owns_base rfl rfl

theorem suits_of_readShifted
    {rotates : Bool}
    (read : readShifted rotates word = .ok result) :
    result.Suits Owns [.readWrite, .read, .read] := by
  cases eq_of_readShifted four read
  exact suits_reading
    (.destination (owns_generalField ..)
      (.sourceRegister (owns_generalField ..)
        (.source (owns_shiftedOperand (owns_generalField ..) _ _)
          (.done _)))) _ _

/-- What a format reads suits an opcode that does no more than it allows. -/
theorem Format.suits_of_read
    {format : Format}
    (read : format.read word = .ok result) :
    result.Suits Owns format.limits := by
  have general address wide start :=
    owns_generalField address wide word.value start
  cases format with
  | nearAddress =>
      rw [Format.read, readNearAddress_eq four] at read
      cases read
      refine suits_reading (.destination (general ..)
        (.value ?_ (.done _))) _ _
      split <;> rfl
  | addConstant =>
      rw [Format.read, readAddConstant_eq four] at read
      cases read
      refine suits_reading (.destination (general ..)
        (.sourceRegister (general ..) (.value rfl ?_))) _ _
      split
      · exact .value rfl (.done _)
      · exact .done _
  | logicalConstant =>
      rcases exists_pattern_of_readLogicalConstant four read with
        ⟨pattern, -, -, -, rfl⟩
      exact suits_reading (.destination (general ..)
        (.sourceRegister (general ..) (.value rfl (.done _)))) _ _
  | wideMove =>
      rcases eq_of_readWideMove four read with ⟨-, rfl⟩
      refine suits_reading (.destination (general ..) (.value rfl ?_)) _ _
      split
      · exact .done _
      · exact .value rfl (.done _)
  | bitfield =>
      rcases eq_of_readBitfield four read with ⟨-, -, -, rfl⟩
      exact suits_reading (.destination (general ..)
        (.sourceRegister (general ..)
          (.value rfl (.value rfl (.done _))))) _ _
  | extract =>
      rcases eq_of_readExtract four read with ⟨-, rfl⟩
      exact suits_reading (.destination (general ..)
        (.sourceRegister (general ..)
          (.sourceRegister (general ..) (.value rfl (.done _))))) _ _
  | branch =>
      rw [Format.read, readBranch_eq four] at read
      cases read
      exact suits_reading (.value rfl (.done _)) _ _
  | conditionalBranch =>
      rw [Format.read, readConditionalBranch_eq four] at read
      cases read
      exact suits_reading (.value rfl (.done _)) _ _
  | compareBranch =>
      rw [Format.read, readCompareBranch_eq four] at read
      cases read
      exact suits_reading (.sourceRegister (general ..)
        (.value rfl (.done _))) _ _
  | testBranch =>
      rw [Format.read, readTestBranch_eq four] at read
      cases read
      exact suits_reading (.sourceRegister (general ..)
        (.value rfl (.value rfl (.done _)))) _ _
  | branchRegister =>
      rw [Format.read, readBranchRegister_eq four] at read
      cases read
      exact suits_reading (.sourceRegister (general ..) (.done _)) _ _
  | bare =>
      cases read
      exact suits_reading (.done _) _ _
  | exception | hint =>
      rw [Format.read, readCode_eq four (by decide) (by decide)] at read
      cases read
      exact suits_reading (.value rfl (.done _)) _ _
  | fromSystem =>
      rw [Format.read, readFromSystem_eq four] at read
      cases read
      exact suits_reading (.destination (general ..)
        (.value rfl (.done _))) _ _
  | toSystem =>
      rw [Format.read, readToSystem_eq four] at read
      cases read
      exact suits_reading (.location rfl (List.forall_mem_nil _)
        (.sourceRegister (general ..) (.done _))) _ _
  | literal =>
      rw [Format.read, readLiteral_eq four] at read
      cases read
      exact suits_reading (.destination (general ..)
        (.value rfl (.done _))) _ _
  | pair =>
      rcases eq_of_readPair four read with ⟨-, doubtful, rfl⟩
      exact suits_reading (.destination (general ..)
        (.destination (general ..)
          (.location rfl (owns_base rfl rfl) (.done _)))) _ _
  | unsignedOffset =>
      rw [Format.read, readUnsignedOffset_eq four] at read
      cases read
      exact suits_reading (.destination (general ..)
        (.location rfl (owns_base rfl rfl) (.done _))) _ _
  | indexed =>
      rw [Format.read, readIndexed_eq four] at read
      cases read
      exact suits_reading (.destination (general ..)
        (.location rfl (owns_base rfl rfl) (.done _))) _ _
  | registerOffset =>
      rcases exists_extension_of_readRegisterOffset four read with
        ⟨extension, wide, -, rfl⟩
      exact suits_reading (.destination (general ..)
        (.location rfl (owns_baseAndIndex rfl rfl) (.done _))) _ _
  | exclusive =>
      rw [Format.read, readExclusive_eq four] at read
      cases read
      exact suits_reading (.destination (general ..)
        (.location rfl (owns_base rfl rfl) (.done _))) _ _
  | exclusiveStore =>
      rw [Format.read, readExclusiveStore_eq four] at read
      cases read
      exact suits_reading (.destination (general ..)
        (.destination (general ..)
          (.location rfl (owns_base rfl rfl) (.done _)))) _ _
  | structures | structuresUpdating =>
      exact suits_of_readStructures four read
  | logicalRegister | addRegister => exact suits_of_readShifted four read
  | select =>
      rw [Format.read, readSelect_eq four] at read
      cases read
      exact suits_reading (.destination (general ..)
        (.sourceRegister (general ..)
          (.sourceRegister (general ..) (.value rfl (.done _))))) _ _
  | twoSources =>
      rw [Format.read, readSources_eq four] at read
      cases read
      exact suits_reading (.destination (general ..)
        (.sourceRegister (general ..)
          (.sourceRegister (general ..) (.done _)))) _ _
  | threeSources =>
      rw [Format.read, readSources_eq four] at read
      cases read
      exact suits_reading (.destination (general ..)
        (.sourceRegister (general ..)
          (.sourceRegister (general ..)
            (.sourceRegister (general ..) (.done _))))) _ _
  | floatConstant =>
      rcases exists_size_of_readFloatConstant four read with
        ⟨size, width, rfl⟩
      exact suits_reading (.destination (owns_floatField width ..)
        (.value rfl (.done _))) _ _
  | floatArithmetic =>
      rcases exists_size_of_readFloat four read with ⟨size, width, rfl⟩
      exact suits_reading (.destination (owns_floatField width ..)
        (.sourceRegister (owns_floatField width ..)
          (.sourceRegister (owns_floatField width ..) (.done _)))) _ _

end Readings

/-! ## Reductions -/

section Reductions

variable
  {operands reduced : List Operand}
  {first second third fourth : Access}
  {rest : List Access}

theorem suits_stackMove
    (reduces : stackMove operands = some reduced)
    (suits : Suits Owns (first :: second :: rest) operands) :
    Suits Owns [first, second] reduced := by
  rcases exists_of_stackMove reduces with ⟨_, _, _, -, rfl, rfl⟩
  rcases suits with _ | ⟨proper, own, _ | ⟨properToo, ownToo, -⟩⟩
  exact .operand proper own (.operand properToo ownToo (.done _))

theorem suits_withoutDestination
    (reduces : withoutDestination operands = some reduced)
    (suits : Suits Owns (first :: rest) operands) :
    Suits Owns rest reduced := by
  rcases exists_of_withoutDestination reduces with ⟨_, -, rfl⟩
  rcases suits with _ | ⟨-, -, others⟩
  exact others

theorem suits_withoutFirstSource
    (reduces : withoutFirstSource operands = some reduced)
    (suits : Suits Owns (first :: second :: rest) operands) :
    Suits Owns (first :: rest) reduced := by
  rcases exists_of_withoutFirstSource reduces with ⟨_, _, _, -, rfl, rfl⟩
  rcases suits with _ | ⟨proper, own, _ | ⟨-, -, others⟩⟩
  exact .operand proper own others

theorem suits_withoutAddend
    (reduces : withoutAddend operands = some reduced)
    (suits : Suits Owns (first :: second :: third :: rest) operands) :
    Suits Owns [first, second, third] reduced := by
  rcases exists_of_withoutAddend reduces with ⟨_, _, _, _, -, rfl, rfl⟩
  rcases suits with
    _ | ⟨proper, own, _ | ⟨properToo, ownToo, _ | ⟨proper₃, own₃, -⟩⟩⟩
  exact .operand proper own
    (.operand properToo ownToo (.operand proper₃ own₃ (.done _)))

/-- A constant in place of those that a wide move takes. -/
theorem suits_wideMoveParts
    {destination : Operand}
    {constant place : Nat}
    (parts : wideMoveParts? operands = some (destination, constant, place))
    (suits : Suits Owns (first :: rest) operands)
    (value : Immediate) :
    Suits Owns [first, .read] [destination, .immediate value] := by
  unfold wideMoveParts? at parts
  split at parts
  · cases parts
    rcases suits with _ | ⟨proper, own, -⟩
    exact .operand proper own (.value rfl (.done _))
  · cases parts
    rcases suits with _ | ⟨proper, own, -⟩
    exact .operand proper own (.value rfl (.done _))
  · cases parts

theorem suits_wideMove
    (reduces : wideMove operands = some reduced)
    (suits : Suits Owns (first :: rest) operands) :
    Suits Owns [first, .read] reduced := by
  rcases exists_of_wideMove reduces with ⟨_, _, _, parts, -, rfl⟩
  exact suits_wideMoveParts parts suits _

theorem suits_invertedMove
    (reduces : invertedMove operands = some reduced)
    (suits : Suits Owns (first :: rest) operands) :
    Suits Owns [first, .read] reduced := by
  rcases exists_of_invertedMove reduces with ⟨_, _, _, parts, -, -, rfl⟩
  exact suits_wideMoveParts parts suits _

/-- The lower half of a source is a register of the set, too. -/
theorem suits_extension
    {condition : Register → Bool}
    {highest : Nat}
    (gives : Format.Gives .bitfield operands)
    (reduces : Bitfield.extension condition highest operands = some reduced)
    (suits : Suits Owns (first :: .read :: rest) operands) :
    Suits Owns [first, .read] reduced := by
  rcases Bitfield.exists_of_extension reduces with ⟨field, found, -, -, rfl⟩
  rcases Bitfield.exists_of_ofOperands? found with ⟨immr, imms, rfl⟩
  rcases suits with _ | ⟨proper, own, _ | ⟨-, ownToo, -⟩⟩
  have owned := List.forall_mem_singleton.mp ownToo
  rcases field with ⟨destination, source, _, _⟩
  cases gives
  exact .operand proper own (.sourceRegister owned.narrow (.done _))

theorem suits_smallConstants
    (constants : List Nat)
    {count : Nat}
    (enough : constants.length ≤ count) :
    Suits Owns (List.replicate count .read)
      (constants.map smallConstant) := by
  induction constants generalizing count with
  | nil => exact .done _
  | cons constant constants induction =>
      cases count with
      | zero => exact absurd enough (Nat.not_succ_le_zero _)
      | succ count =>
          exact .value rfl (induction (Nat.le_of_succ_le_succ enough))

theorem suits_withConstants
    {condition : Bitfield → Bool}
    {constants : Bitfield → List Nat}
    {count : Nat}
    (enough : ∀ field, (constants field).length ≤ count)
    (reduces :
      Bitfield.withConstants condition constants operands = some reduced)
    (suits : Suits Owns (first :: second :: rest) operands) :
    Suits Owns (first :: second :: List.replicate count .read) reduced := by
  rcases Bitfield.exists_of_withConstants reduces with ⟨field, found, -, rfl⟩
  rcases Bitfield.exists_of_ofOperands? found with ⟨immr, imms, rfl⟩
  rcases suits with _ | ⟨proper, own, _ | ⟨properToo, ownToo, -⟩⟩
  exact .operand proper own
    (.operand properToo ownToo (suits_smallConstants _ (enough field)))

theorem suits_rotation
    (reduces : rotation operands = some reduced)
    (suits : Suits Owns [first, second, third, fourth] operands) :
    Suits Owns [first, second, fourth] reduced := by
  rcases exists_of_rotation reduces with ⟨_, _, _, _, -, rfl, rfl⟩
  rcases suits with
    _ | ⟨proper, own, _ | ⟨properToo, ownToo, _ | ⟨-, -, others⟩⟩⟩
  exact .operand proper own (.operand properToo ownToo others)

theorem suits_conditionalSet
    (reduces : conditionalSet operands = some reduced)
    (suits : Suits Owns (first :: rest) operands) :
    Suits Owns [first, .read] reduced := by
  rcases exists_of_conditionalSet reduces with
    ⟨_, _, _, _, -, -, rfl, rfl⟩
  rcases suits with _ | ⟨proper, own, -⟩
  exact .operand proper own (.value rfl (.done _))

theorem suits_conditionalChange
    (reduces : conditionalChange operands = some reduced)
    (suits : Suits Owns (first :: second :: rest) operands) :
    Suits Owns [first, second, .read] reduced := by
  rcases exists_of_conditionalChange reduces with ⟨_, _, _, _, -, rfl, rfl⟩
  rcases suits with _ | ⟨proper, own, _ | ⟨properToo, ownToo, -⟩⟩
  exact .operand proper own
    (.operand properToo ownToo (.value rfl (.done _)))

theorem suits_hintOf
    {code : Int}
    (reduces : hintOf code operands = some reduced) :
    Suits Owns rest reduced := by
  rcases exists_of_hintOf reduces with ⟨_, -, -, rfl⟩
  exact .done _

theorem suits_linkReturn
    (reduces : linkReturn operands = some reduced) :
    Suits Owns rest reduced := by
  rcases exists_of_linkReturn reduces with ⟨_, -, -, rfl⟩
  exact .done _

/-- A shift by a register is only given another name. -/
theorem suits_some
    (reduces : some operands = some reduced)
    (suits : Suits Owns rest operands) :
    Suits Owns rest reduced := by
  cases reduces
  exact suits

end Reductions

/-! ## Rules -/

/-- Whether operands have the shape that the format of the opcode gives. -/
def Takes (raw : Form) : Prop :=
  ∀ opcode : Opcode, opcode.id = raw.opcode → opcode.Takes raw.operands

theorem keepsSuits_preferred
    {long short : Opcode}
    {reduce : List Operand → Option (List Operand)}
    (keeps :
      ∀ {operands reduced : List Operand},
        long.Takes operands →
          reduce operands = some reduced →
          Suits Owns long.info.access operands →
          Suits Owns short.info.access reduced) :
    isa.KeepsSuits Owns Takes (preferred long short reduce) :=
  ⟨long.info, short.info, by simp [isa, preferred], by simp [isa, preferred],
    fun takes => keeps (takes long rfl)⟩

theorem keepsSuits_extension
    {long short : Opcode}
    {condition : Register → Bool}
    {highest : Nat}
    (known : long.format? = some .bitfield)
    (longAccess : long.info.access = [.write, .read, .read, .read])
    (shortAccess : short.info.access = [.write, .read]) :
    isa.KeepsSuits Owns Takes
      (preferred long short (Bitfield.extension condition highest)) := by
  refine keepsSuits_preferred fun takes reduces suits => ?_
  rw [longAccess] at suits
  rw [shortAccess]
  exact suits_extension (takes _ known) reduces suits

theorem keepsSuits_withConstants
    {long short : Opcode}
    {condition : Bitfield → Bool}
    {constants : Bitfield → List Nat}
    {first second : Access}
    {rest : List Access}
    (count : Nat)
    (enough : ∀ field, (constants field).length ≤ count)
    (longAccess : long.info.access = first :: second :: rest)
    (shortAccess :
      short.info.access = first :: second :: List.replicate count .read) :
    isa.KeepsSuits Owns Takes
      (preferred long short
        (Bitfield.withConstants condition constants)) := by
  refine keepsSuits_preferred fun _ reduces suits => ?_
  rw [longAccess] at suits
  rw [shortAccess]
  exact suits_withConstants enough reduces suits

theorem keepsSuits_of_mem :
    ∀ rule ∈ isa.aliases, isa.KeepsSuits Owns Takes rule := by
  simp only [show isa.aliases = preferredForms from rfl, preferredForms,
    List.forall_mem_cons]
  exact
    ⟨keepsSuits_preferred fun _ => suits_stackMove,
      keepsSuits_preferred fun _ => suits_withoutDestination,
      keepsSuits_preferred fun _ => suits_withoutDestination,
      keepsSuits_preferred fun _ => suits_withoutDestination,
      keepsSuits_preferred fun _ reduces =>
        suits_withoutFirstSource (withoutFirstSource_of_logicalMove reduces),
      keepsSuits_preferred fun _ => suits_wideMove,
      keepsSuits_preferred fun _ => suits_invertedMove,
      keepsSuits_extension rfl rfl rfl,
      keepsSuits_extension rfl rfl rfl,
      keepsSuits_extension rfl rfl rfl,
      keepsSuits_withConstants 1 (fun _ => Nat.le_refl _) rfl rfl,
      keepsSuits_withConstants 2 (fun _ => Nat.le_refl _) rfl rfl,
      keepsSuits_withConstants 2 (fun _ => Nat.le_refl _) rfl rfl,
      keepsSuits_extension rfl rfl rfl,
      keepsSuits_extension rfl rfl rfl,
      keepsSuits_withConstants 1 (fun _ => Nat.le_refl _) rfl rfl,
      keepsSuits_withConstants 1 (fun _ => Nat.le_refl _) rfl rfl,
      keepsSuits_withConstants 2 (fun _ => Nat.le_refl _) rfl rfl,
      keepsSuits_withConstants 2 (fun _ => Nat.le_refl _) rfl rfl,
      keepsSuits_withConstants 2 (fun _ => Nat.le_refl _) rfl rfl,
      keepsSuits_withConstants 2 (fun _ => Nat.le_refl _) rfl rfl,
      keepsSuits_preferred fun _ => suits_rotation,
      keepsSuits_preferred fun _ reduces _ => suits_linkReturn reduces,
      keepsSuits_preferred fun _ reduces _ => suits_hintOf reduces,
      keepsSuits_preferred fun _ reduces _ => suits_hintOf reduces,
      keepsSuits_preferred fun _ reduces _ => suits_hintOf reduces,
      keepsSuits_preferred fun _ reduces _ => suits_hintOf reduces,
      keepsSuits_preferred fun _ reduces _ => suits_hintOf reduces,
      keepsSuits_preferred fun _ reduces _ => suits_hintOf reduces,
      keepsSuits_preferred fun _ reduces =>
        suits_withoutFirstSource (withoutFirstSource_of_registerMove reduces),
      keepsSuits_preferred fun _ => suits_withoutFirstSource,
      keepsSuits_preferred fun _ => suits_withoutDestination,
      keepsSuits_preferred fun _ => suits_withoutDestination,
      keepsSuits_preferred fun _ => suits_withoutDestination,
      keepsSuits_preferred fun _ => suits_withoutFirstSource,
      keepsSuits_preferred fun _ => suits_withoutFirstSource,
      keepsSuits_preferred fun _ => suits_conditionalSet,
      keepsSuits_preferred fun _ => suits_conditionalChange,
      keepsSuits_preferred fun _ => suits_conditionalSet,
      keepsSuits_preferred fun _ => suits_conditionalChange,
      keepsSuits_preferred fun _ => suits_conditionalChange,
      keepsSuits_preferred fun _ => suits_withoutAddend,
      keepsSuits_preferred fun _ => suits_withoutAddend,
      keepsSuits_preferred fun _ => suits_some,
      keepsSuits_preferred fun _ => suits_some,
      keepsSuits_preferred fun _ => suits_some,
      keepsSuits_preferred fun _ => suits_some,
      by simp⟩

/-! ## Decoding -/

/-- Whether an opcode does no more than the format beside it allows. -/
def isWithin (opcode format : Nat) : Bool :=
  match Opcode.ofId? opcode, Format.ofId? format with
  | some opcode, some format =>
    Access.listWithin opcode.info.access format.limits
  | _, _ => false

set_option maxRecDepth 20000 in
theorem isWithin_of_mem : ∀ entry ∈ table.entries, entry.fits isWithin := by
  decide

/-- What an opcode touches without naming it. -/
theorem Opcode.owns_of_mem_implicit
    (opcode : Opcode)
    {register : Register}
    (member :
      register ∈ opcode.info.implicitReads ++ opcode.info.implicitWrites) :
    Owns register := by
  have listed : register ∈ [conditionFlags, returnAddress] := by
    revert register
    rw [← List.subset_def]
    cases opcode <;> decide
  simp only [List.mem_cons, List.not_mem_nil, or_false] at listed
  rcases listed with rfl | rfl
  · exact .flags
  · exact owns_returnAddress

section Decoding

variable {options : Options} {word : Word}

/-- What has been decoded suits its opcode. -/
theorem exists_suits_of_decodeRaw
    {raw : RawInstruction}
    (decoded : Engine.decodeRaw ⟨isa, options⟩ word = .ok raw) :
    ∃ info,
      isa.info? raw.opcode = some info ∧
        Suits Owns info.access raw.operands ∧
        Takes raw.form ∧
        ∀ register ∈ raw.specifics.implicitReads, Owns register := by
  rcases Engine.run_of_decodeRaw (fun _ => rfl) decoded with ⟨four, ran⟩
  rcases Isa.exists_fit_of_run isWithin_of_mem ran with
    ⟨number, result, within, read, operands, specifics⟩
  unfold isWithin at within
  split at within
  · next opcode format named known =>
    have suits : result.Suits Owns format.limits :=
      Format.suits_of_read four (by simpa [isa, known] using read)
    refine ⟨opcode.info, by simp [isa, named], ?_, ?_, ?_⟩
    · rw [operands]
      exact suits.operands.of_listWithin within
    · exact fun opcode same format known => gives_of_run four ran same known
    · rw [specifics]
      exact suits.implicit
  · cases within

/-- The last corrections to a detail record concern no register. -/
theorem unnamed_completeDetail (detail : Detail) :
    (isa.completeDetail detail).unnamed = detail.unnamed := by
  cases known : detail.specifics <;>
    simp [isa, completeDetail, known, Detail.unnamed,
      Specifics.implicitReads]

/-- A decoded instruction is described by its opcode. -/
theorem exists_isDescribed
    {decoded : Decoded}
    (success : Engine.decodeWord ⟨isa, options⟩ word true = .ok decoded) :
    ∃ info detail,
      decoded.instruction.IsDescribed isa Owns info detail := by
  refine Engine.exists_isDescribed (fun _ => rfl) ?_ success
  intro raw info read preferred
  rcases exists_suits_of_decodeRaw read with
    ⟨long, described, suits, takes, silent⟩
  refine ⟨Isa.suits_canonicalize keepsSuits_of_mem described takes suits
    preferred, ?_⟩
  intro operands register member
  rcases Option.map_eq_some_iff.mp preferred with ⟨opcode, -, rfl⟩
  rw [unnamed_completeDetail, Detail.unnamed, List.append_assoc,
    List.mem_append] at member
  rcases member with read | implicit
  · exact silent register read
  · exact opcode.owns_of_mem_implicit implicit

end Decoding

end MachineCode.Arm64
