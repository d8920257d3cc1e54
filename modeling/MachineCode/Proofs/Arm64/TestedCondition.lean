import MachineCode.Proofs.Arm64.ConstantMove
import MachineCode.Proofs.Arm64.Flow
import MachineCode.Proofs.FirstWord

/-!
# The condition that the record names

The condition of an Arm64 instruction stands in several places: a branch under
a condition has it in its opcode, a selection among its operands, and both in
the facts of the detail record. Those facts are read from the word, before the
instruction is put into its preferred form, and are not looked at again.

The places agree for branches and for selections as they are decoded. A set or
a change names the opposite condition among its operands, and the facts do
not follow (`decodeWith_testedCondition`). What an opcode does with the
condition is told by `Testing`, and what is on record by `Testing.Records`,
which holds of what every format reads and is carried over by every rule.
-/

namespace MachineCode

namespace Operand

/-- The condition, if the operand is one. -/
def condition? : Operand → Option Condition
  | .condition named => some named
  | _ => none

/-- The conditions among the operands. -/
def conditions (operands : List Operand) : List Condition :=
  operands.filterMap condition?

theorem mem_conditions {operands : List Operand} {condition : Condition} :
    condition ∈ conditions operands ↔ .condition condition ∈ operands := by
  rw [conditions, List.mem_filterMap]
  constructor
  · rintro ⟨operand, member, named⟩
    unfold condition? at named
    split at named <;> cases named
    exact member
  · intro member
    exact ⟨_, member, rfl⟩

theorem conditions_eq_nil_iff {operands : List Operand} :
    conditions operands = [] ↔
      ∀ operand ∈ operands, operand.condition? = none :=
  List.filterMap_eq_nil_iff

end Operand

namespace Arm64

open Operand

/-- Where the condition of an instruction stands. -/
inductive Testing where
  | nothing
  /-- Its opcode stands for the condition. -/
  | fixed
  /-- The condition is an operand. -/
  | named
  /-- The opposite of the condition is an operand. -/
  | opposed
deriving DecidableEq, Repr

/-- Where an instruction of the opcode has its condition. -/
def Opcode.testing : Opcode → Testing
  | .bEq | .bNe | .bHs | .bLo | .bMi | .bPl | .bVs | .bVc
  | .bHi | .bLs | .bGe | .bLt | .bGt | .bLe | .bAl | .bNv => .fixed
  | .csel | .csinc | .csinv | .csneg => .named
  | .cset | .csetm | .cinc | .cinv | .cneg => .opposed
  | _ => .nothing

/-- Where what a format reads has its condition. -/
def Format.testing : Format → Testing
  | .conditionalBranch => .fixed
  | .select => .named
  | _ => .nothing

/--
The condition on record beside some operands, where `fixed` is the one that
the opcode stands for.
-/
inductive Testing.Records (fixed : Option Condition) (operands : List Operand) :
    Testing → Option Condition → Prop where
  | nothing (silent : conditions operands = []) :
      Records fixed operands .nothing none
  | fixed {condition : Condition}
      (isFixed : fixed = some condition)
      (silent : conditions operands = []) :
      Records fixed operands .fixed (some condition)
  | named {condition : Condition}
      (single : conditions operands = [condition]) :
      Records fixed operands .named (some condition)
  | opposed {condition : Condition}
      (single : conditions operands = [condition.inverse]) :
      Records fixed operands .opposed (some condition)

theorem Testing.Records.of_fixed_eq
    {fixed other : Option Condition}
    {operands : List Operand}
    {testing : Testing}
    {recorded : Option Condition}
    (records : testing.Records fixed operands recorded)
    (same : testing = .fixed → other = fixed) :
    testing.Records other operands recorded := by
  cases records with
  | nothing silent => exact .nothing silent
  | fixed isFixed silent => exact .fixed ((same rfl).trans isFixed) silent
  | named single => exact .named single
  | opposed single => exact .opposed single

/-! ## What formats read -/

/-- The facts of a reading record the condition of its format. -/
def Format.Records (format : Format) (word : Word) (result : Reading) :
    Prop :=
  ∃ facts,
    result.specifics = .arm64 facts ∧
      Testing.Records (some (conditionOfCode (bitField word.value 0 4)))
        result.operands format.testing facts.condition

section Readings

variable {word : Word} {result : Reading} (four : word.size = 4)
include four

/-- What a format reads records the condition of the word, if it has one. -/
theorem Format.records_of_read
    {format : Format}
    (read : format.read word = .ok result) :
    format.Records word result := by
  cases format with
  | nearAddress =>
      rw [Format.read, readNearAddress_eq four] at read
      cases read
      refine ⟨_, rfl, .nothing ?_⟩
      split <;> rfl
  | addConstant =>
      rw [Format.read, readAddConstant_eq four] at read
      cases read
      refine ⟨_, rfl, .nothing ?_⟩
      split <;> rfl
  | logicalConstant =>
      rcases exists_pattern_of_readLogicalConstant four read with
        ⟨pattern, -, -, -, rfl⟩
      exact ⟨_, rfl, .nothing rfl⟩
  | wideMove =>
      rcases eq_of_readWideMove four read with ⟨-, rfl⟩
      refine ⟨_, rfl, .nothing ?_⟩
      split <;> rfl
  | bitfield =>
      rcases eq_of_readBitfield four read with ⟨-, -, -, rfl⟩
      exact ⟨_, rfl, .nothing rfl⟩
  | extract =>
      rcases eq_of_readExtract four read with ⟨-, rfl⟩
      exact ⟨_, rfl, .nothing rfl⟩
  | branch =>
      rw [Format.read, readBranch_eq four] at read
      cases read
      exact ⟨_, rfl, .nothing rfl⟩
  | conditionalBranch =>
      rw [Format.read, readConditionalBranch_eq four] at read
      cases read
      exact ⟨_, rfl, .fixed rfl rfl⟩
  | compareBranch =>
      rw [Format.read, readCompareBranch_eq four] at read
      cases read
      exact ⟨_, rfl, .nothing rfl⟩
  | testBranch =>
      rw [Format.read, readTestBranch_eq four] at read
      cases read
      exact ⟨_, rfl, .nothing rfl⟩
  | branchRegister =>
      rw [Format.read, readBranchRegister_eq four] at read
      cases read
      exact ⟨_, rfl, .nothing rfl⟩
  | bare =>
      cases read
      exact ⟨_, rfl, .nothing rfl⟩
  | exception | hint =>
      rw [Format.read, readCode_eq four (by decide) (by decide)] at read
      cases read
      exact ⟨_, rfl, .nothing rfl⟩
  | fromSystem =>
      rw [Format.read, readFromSystem_eq four] at read
      cases read
      exact ⟨_, rfl, .nothing rfl⟩
  | toSystem =>
      rw [Format.read, readToSystem_eq four] at read
      cases read
      exact ⟨_, rfl, .nothing rfl⟩
  | literal =>
      rw [Format.read, readLiteral_eq four] at read
      cases read
      exact ⟨_, rfl, .nothing rfl⟩
  | pair =>
      rcases eq_of_readPair four read with ⟨-, doubtful, rfl⟩
      exact ⟨_, rfl, .nothing rfl⟩
  | unsignedOffset =>
      rw [Format.read, readUnsignedOffset_eq four] at read
      cases read
      exact ⟨_, rfl, .nothing rfl⟩
  | indexed =>
      rw [Format.read, readIndexed_eq four] at read
      cases read
      exact ⟨_, rfl, .nothing rfl⟩
  | registerOffset =>
      rcases exists_extension_of_readRegisterOffset four read with
        ⟨extension, wide, -, rfl⟩
      exact ⟨_, rfl, .nothing rfl⟩
  | exclusive =>
      rw [Format.read, readExclusive_eq four] at read
      cases read
      exact ⟨_, rfl, .nothing rfl⟩
  | exclusiveStore =>
      rw [Format.read, readExclusiveStore_eq four] at read
      cases read
      exact ⟨_, rfl, .nothing rfl⟩
  | structures | structuresUpdating =>
      rcases exists_count_of_readStructures four read with ⟨count, -, rfl⟩
      exact ⟨_, rfl, .nothing rfl⟩
  | logicalRegister | addRegister =>
      cases eq_of_readShifted four read
      refine ⟨_, rfl, .nothing ?_⟩
      unfold shiftedOperand
      split <;> rfl
  | select =>
      rw [Format.read, readSelect_eq four] at read
      cases read
      exact ⟨_, rfl, .named rfl⟩
  | twoSources | threeSources =>
      rw [Format.read, readSources_eq four] at read
      cases read
      exact ⟨_, rfl, .nothing rfl⟩
  | floatConstant =>
      rcases exists_size_of_readFloatConstant four read with
        ⟨size, width, rfl⟩
      exact ⟨_, rfl, .nothing rfl⟩
  | floatArithmetic =>
      rcases exists_size_of_readFloat four read with ⟨size, width, rfl⟩
      exact ⟨_, rfl, .nothing rfl⟩

end Readings

/-! ## What has been decoded -/

/-- The condition of an opcode is on record beside its operands. -/
def Opcode.Records
    (opcode : Opcode)
    (operands : List Operand)
    (recorded : Option Condition) :
    Prop :=
  Testing.Records opcode.info.condition operands opcode.testing recorded

/-- Whether an opcode has its condition where the format beside it has. -/
def testsAlike (number format : Nat) : Bool :=
  match Opcode.ofId? number, Format.ofId? format with
  | some opcode, some format =>
    opcode.id = number && opcode.testing = format.testing
  | _, _ => false

theorem testsAlike_of_mem :
    ∀ entry ∈ table.entries, entry.fits testsAlike := by
  decide +kernel

/-- Whether a path to a branch under a condition tests the condition's code. -/
def testsCode (branch : Nat × Opcode) : Bool :=
  program.paths.all (tests branch.2 0 4 branch.1)

set_option maxRecDepth 20000 in
theorem testsCode_of_mem :
    ∀ branch ∈ conditionalBranches, testsCode branch := by
  decide +kernel

theorem condition_of_mem :
    ∀ branch ∈ conditionalBranches,
      branch.2.info.condition = some (conditionOfCode branch.1) := by
  decide

theorem Opcode.exists_code
    {opcode : Opcode}
    (isFixed : opcode.testing = .fixed) :
    ∃ code, (code, opcode) ∈ conditionalBranches := by
  have listed : opcode ∈ conditionalBranches.map Prod.snd := by
    cases opcode <;> first | decide | cases isFixed
  rcases List.mem_map.mp listed with ⟨⟨code, _⟩, member, rfl⟩
  exact ⟨code, member⟩

section Decoding

variable
  {word : Word}
  (four : word.size = 4)
  {features : Features}
  {raw : RawInstruction}
  (ran : isa.run table word features = .ok raw)
include four ran

/-- The opcode of a branch stands for the condition of the word's code. -/
theorem condition_of_run
    {opcode : Opcode}
    (same : raw.opcode = opcode.id)
    (isFixed : opcode.testing = .fixed) :
    opcode.info.condition =
      some (conditionOfCode (bitField word.value 0 4)) := by
  rcases opcode.exists_code isFixed with ⟨code, member⟩
  have tested := List.all_eq_true.mp (testsCode_of_mem _ member)
  rw [field_of_run tested four ran same]
  exact condition_of_mem _ member

/-- The facts of a raw instruction record the condition of its opcode. -/
theorem exists_records_of_run :
    ∃ opcode : Opcode, ∃ facts,
      raw.opcode = opcode.id ∧
        raw.specifics = .arm64 facts ∧
        opcode.Records raw.operands facts.condition := by
  rcases Isa.exists_fit_of_run testsAlike_of_mem ran with
    ⟨number, result, alike, read, operands, specifics⟩
  unfold testsAlike at alike
  split at alike
  · next opcode format named known =>
    simp only [Bool.and_eq_true, decide_eq_true_eq] at alike
    rcases alike with ⟨same, sameTesting⟩
    have readFormat : format.read word = .ok result := by
      simpa [isa, known] using read
    rcases Format.records_of_read four readFormat with
      ⟨facts, isFacts, records⟩
    refine ⟨opcode, facts, same.symm, specifics.trans isFacts, ?_⟩
    rw [Opcode.Records, operands, sameTesting]
    exact records.of_fixed_eq fun isFixed =>
      condition_of_run four ran same.symm (sameTesting.trans isFixed)
  · cases alike

end Decoding

/-! ## What rules leave on record -/

section Reductions

variable {operands reduced : List Operand}

theorem silent_of_subset
    (subset : reduced ⊆ operands)
    (silent : conditions operands = []) :
    conditions reduced = [] := by
  rw [conditions_eq_nil_iff] at silent ⊢
  exact fun operand member => silent operand (subset member)

theorem silent_stackMove
    (reduces : stackMove operands = some reduced)
    (silent : conditions operands = []) :
    conditions reduced = [] := by
  rcases exists_of_stackMove reduces with ⟨_, _, _, -, rfl, rfl⟩
  exact silent_of_subset (by simp) silent

theorem silent_withoutDestination
    (reduces : withoutDestination operands = some reduced)
    (silent : conditions operands = []) :
    conditions reduced = [] := by
  rcases exists_of_withoutDestination reduces with ⟨_, -, rfl⟩
  exact silent_of_subset (List.subset_cons_self ..) silent

theorem silent_withoutFirstSource
    (reduces : withoutFirstSource operands = some reduced)
    (silent : conditions operands = []) :
    conditions reduced = [] := by
  rcases exists_of_withoutFirstSource reduces with ⟨_, _, _, -, rfl, rfl⟩
  exact silent_of_subset (by simp) silent

theorem silent_withoutAddend
    (reduces : withoutAddend operands = some reduced)
    (silent : conditions operands = []) :
    conditions reduced = [] := by
  rcases exists_of_withoutAddend reduces with ⟨_, _, _, _, -, rfl, rfl⟩
  exact silent_of_subset (by simp) silent

/-- The constant that is moved stands in place of other constants. -/
theorem silent_wideMoveParts
    {destination : Operand}
    {constant place : Nat}
    (parts : wideMoveParts? operands = some (destination, constant, place))
    (silent : conditions operands = [])
    (value : Immediate) :
    conditions [destination, .immediate value] = [] := by
  unfold wideMoveParts? at parts
  split at parts <;> cases parts
  · exact silent
  · exact silent

theorem silent_wideMove
    (reduces : wideMove operands = some reduced)
    (silent : conditions operands = []) :
    conditions reduced = [] := by
  rcases exists_of_wideMove reduces with ⟨_, _, _, parts, -, rfl⟩
  exact silent_wideMoveParts parts silent _

theorem silent_invertedMove
    (reduces : invertedMove operands = some reduced)
    (silent : conditions operands = []) :
    conditions reduced = [] := by
  rcases exists_of_invertedMove reduces with ⟨_, _, _, parts, -, -, rfl⟩
  exact silent_wideMoveParts parts silent _

theorem silent_extension
    {condition : Register → Bool}
    {highest : Nat}
    (reduces : Bitfield.extension condition highest operands = some reduced)
    (silent : conditions operands = []) :
    conditions reduced = [] := by
  rcases Bitfield.exists_of_extension reduces with ⟨field, found, -, -, rfl⟩
  rcases Bitfield.exists_of_ofOperands? found with ⟨_, _, rfl⟩
  exact silent

theorem conditions_smallConstants (constants : List Nat) :
    conditions (constants.map smallConstant) = [] := by
  rw [conditions_eq_nil_iff]
  intro operand member
  rcases List.mem_map.mp member with ⟨_, -, rfl⟩
  rfl

theorem silent_withConstants
    {condition : Bitfield → Bool}
    {constants : Bitfield → List Nat}
    (reduces :
      Bitfield.withConstants condition constants operands = some reduced)
    (silent : conditions operands = []) :
    conditions reduced = [] := by
  rcases Bitfield.exists_of_withConstants reduces with ⟨field, found, -, rfl⟩
  rcases Bitfield.exists_of_ofOperands? found with ⟨_, _, rfl⟩
  rw [conditions_eq_nil_iff, List.forall_mem_cons] at silent ⊢
  exact ⟨silent.1, conditions_eq_nil_iff.mp (conditions_smallConstants _)⟩

theorem silent_rotation
    (reduces : rotation operands = some reduced)
    (silent : conditions operands = []) :
    conditions reduced = [] := by
  rcases exists_of_rotation reduces with ⟨_, _, _, _, -, rfl, rfl⟩
  exact silent_of_subset (by simp) silent

/-- A shift by a register is only given another name. -/
theorem silent_some
    (reduces : some operands = some reduced)
    (silent : conditions operands = []) :
    conditions reduced = [] := by
  cases reduces
  exact silent

theorem silent_linkReturn (reduces : linkReturn operands = some reduced) :
    conditions reduced = [] := by
  rcases exists_of_linkReturn reduces with ⟨_, -, -, rfl⟩
  rfl

theorem silent_hintOf
    {code : Int}
    (reduces : hintOf code operands = some reduced) :
    conditions reduced = [] := by
  rcases exists_of_hintOf reduces with ⟨_, -, -, rfl⟩
  rfl

/-- The opposite condition behind some of the operands before the only one. -/
theorem conditions_opposed
    {front : List Operand}
    {condition single : Condition}
    (named : conditions (operands ++ [.condition condition]) = [single])
    (subset : front ⊆ operands) :
    conditions (front ++ [.condition condition.inverse]) =
      [single.inverse] := by
  have append (before : List Operand) (last : Condition) :
      conditions (before ++ [.condition last]) = conditions before ++ [last] :=
    List.filterMap_append
  have parts : conditions operands ++ [condition] = [] ++ [single] := by
    rw [← append]
    exact named
  rcases List.append_inj' parts rfl with ⟨silent, last⟩
  cases last
  rw [append, silent_of_subset subset silent, List.nil_append]

theorem opposed_conditionalSet
    {condition : Condition}
    (reduces : conditionalSet operands = some reduced)
    (named : conditions operands = [condition]) :
    conditions reduced = [condition.inverse] := by
  rcases exists_of_conditionalSet reduces with
    ⟨destination, first, second, _, -, -, rfl, rfl⟩
  have subset : [destination] ⊆ [destination, first, second] := by simp
  exact conditions_opposed named subset

theorem opposed_conditionalChange
    {condition : Condition}
    (reduces : conditionalChange operands = some reduced)
    (named : conditions operands = [condition]) :
    conditions reduced = [condition.inverse] := by
  rcases exists_of_conditionalChange reduces with
    ⟨destination, first, second, _, -, rfl, rfl⟩
  have subset : [destination, first] ⊆ [destination, first, second] := by
    simp
  exact conditions_opposed named subset

end Reductions

/-! ## Rules -/

/--
Whether what is on record for an opcode holds of the preferred form of a rule,
whose opcode may have the condition in another place.
-/
def KeepsRecord (rule : Alias) : Prop :=
  ∃ long short : Opcode,
    rule.opcode = long.id ∧ rule.preferred = short.id ∧
      ∀ {operands reduced : List Operand} {recorded : Option Condition},
        rule.reduce operands = some reduced →
          long.Records operands recorded →
          short.Records reduced recorded

section Rules

variable
  {long short : Opcode}
  {reduce : List Operand → Option (List Operand)}

theorem keepsRecord_nothing
    (longTesting : long.testing = .nothing)
    (shortTesting : short.testing = .nothing)
    (silent :
      ∀ {operands reduced : List Operand},
        reduce operands = some reduced →
          conditions operands = [] → conditions reduced = []) :
    KeepsRecord (preferred long short reduce) := by
  refine ⟨long, short, rfl, rfl, ?_⟩
  intro operands reduced recorded reduces records
  rw [Opcode.Records, longTesting] at records
  rw [Opcode.Records, shortTesting]
  cases records with
  | nothing none => exact .nothing (silent reduces none)

theorem keepsRecord_opposed
    (longTesting : long.testing = .named)
    (shortTesting : short.testing = .opposed)
    (opposed :
      ∀ {operands reduced : List Operand} {condition : Condition},
        reduce operands = some reduced →
          conditions operands = [condition] →
          conditions reduced = [condition.inverse]) :
    KeepsRecord (preferred long short reduce) := by
  refine ⟨long, short, rfl, rfl, ?_⟩
  intro operands reduced recorded reduces records
  rw [Opcode.Records, longTesting] at records
  rw [Opcode.Records, shortTesting]
  cases records with
  | named single => exact .opposed (opposed reduces single)

end Rules

theorem keepsRecord_of_mem : ∀ rule ∈ isa.aliases, KeepsRecord rule := by
  simp only [show isa.aliases = preferredForms from rfl, preferredForms,
    List.forall_mem_cons]
  exact
    ⟨keepsRecord_nothing rfl rfl silent_stackMove,
      keepsRecord_nothing rfl rfl silent_withoutDestination,
      keepsRecord_nothing rfl rfl silent_withoutDestination,
      keepsRecord_nothing rfl rfl silent_withoutDestination,
      keepsRecord_nothing rfl rfl fun reduces =>
        silent_withoutFirstSource
          (withoutFirstSource_of_logicalMove reduces),
      keepsRecord_nothing rfl rfl silent_wideMove,
      keepsRecord_nothing rfl rfl silent_invertedMove,
      keepsRecord_nothing rfl rfl silent_extension,
      keepsRecord_nothing rfl rfl silent_extension,
      keepsRecord_nothing rfl rfl silent_extension,
      keepsRecord_nothing rfl rfl silent_withConstants,
      keepsRecord_nothing rfl rfl silent_withConstants,
      keepsRecord_nothing rfl rfl silent_withConstants,
      keepsRecord_nothing rfl rfl silent_extension,
      keepsRecord_nothing rfl rfl silent_extension,
      keepsRecord_nothing rfl rfl silent_withConstants,
      keepsRecord_nothing rfl rfl silent_withConstants,
      keepsRecord_nothing rfl rfl silent_withConstants,
      keepsRecord_nothing rfl rfl silent_withConstants,
      keepsRecord_nothing rfl rfl silent_withConstants,
      keepsRecord_nothing rfl rfl silent_withConstants,
      keepsRecord_nothing rfl rfl silent_rotation,
      keepsRecord_nothing rfl rfl fun reduces _ => silent_linkReturn reduces,
      keepsRecord_nothing rfl rfl fun reduces _ => silent_hintOf reduces,
      keepsRecord_nothing rfl rfl fun reduces _ => silent_hintOf reduces,
      keepsRecord_nothing rfl rfl fun reduces _ => silent_hintOf reduces,
      keepsRecord_nothing rfl rfl fun reduces _ => silent_hintOf reduces,
      keepsRecord_nothing rfl rfl fun reduces _ => silent_hintOf reduces,
      keepsRecord_nothing rfl rfl fun reduces _ => silent_hintOf reduces,
      keepsRecord_nothing rfl rfl fun reduces =>
        silent_withoutFirstSource
          (withoutFirstSource_of_registerMove reduces),
      keepsRecord_nothing rfl rfl silent_withoutFirstSource,
      keepsRecord_nothing rfl rfl silent_withoutDestination,
      keepsRecord_nothing rfl rfl silent_withoutDestination,
      keepsRecord_nothing rfl rfl silent_withoutDestination,
      keepsRecord_nothing rfl rfl silent_withoutFirstSource,
      keepsRecord_nothing rfl rfl silent_withoutFirstSource,
      keepsRecord_opposed rfl rfl opposed_conditionalSet,
      keepsRecord_opposed rfl rfl opposed_conditionalChange,
      keepsRecord_opposed rfl rfl opposed_conditionalSet,
      keepsRecord_opposed rfl rfl opposed_conditionalChange,
      keepsRecord_opposed rfl rfl opposed_conditionalChange,
      keepsRecord_nothing rfl rfl silent_withoutAddend,
      keepsRecord_nothing rfl rfl silent_withoutAddend,
      keepsRecord_nothing rfl rfl silent_some,
      keepsRecord_nothing rfl rfl silent_some,
      keepsRecord_nothing rfl rfl silent_some,
      keepsRecord_nothing rfl rfl silent_some,
      by simp⟩

/-- What is on record for a form holds of its preferred form. -/
theorem exists_records_of_canonicalize
    {raw : Form}
    {opcode : Opcode}
    (same : raw.opcode = opcode.id)
    {recorded : Option Condition}
    (records : opcode.Records raw.operands recorded) :
    ∃ shown : Opcode,
      (Alias.canonicalize isa.aliases raw).opcode = shown.id ∧
        shown.Records (Alias.canonicalize isa.aliases raw).operands
          recorded := by
  rcases Alias.canonicalize_eq_or_exists isa.aliases raw with
    unchanged | ⟨rule, listed, applies⟩
  · rw [unchanged]
    exact ⟨opcode, same, records⟩
  · rcases Alias.exists_of_form? applies with
      ⟨isRaw, reduced, reduces, result⟩
    rcases keepsRecord_of_mem rule listed with
      ⟨long, short, isLong, isShort, keeps⟩
    obtain rfl : long = opcode :=
      Opcode.id_injective (isLong.symm.trans (isRaw.trans same))
    rw [result]
    exact ⟨short, isShort, keeps reduces records⟩

/-! ## The decoded instruction -/

/-- An opcode that stands for a condition is that of a relative branch. -/
theorem Opcode.info_of_fixed
    {opcode : Opcode}
    (isFixed : opcode.testing = .fixed) :
    opcode.info.operation = .conditionalJump ∧
      opcode.info.groups.has .branchRelative := by
  cases opcode <;> first | exact ⟨rfl, by decide⟩ | cases isFixed

/-- A branch under a condition that may fail falls through if it does. -/
theorem exists_flow_of_fixed
    {opcode : Opcode}
    (isFixed : opcode.testing = .fixed)
    {operands : List Operand}
    (tags : opcode.info.Tags operands)
    {condition : Condition}
    (stands : opcode.info.condition = some condition)
    (mayFail : condition ≠ .always)
    (specifics : Specifics)
    (address : Address)
    (size : Nat) :
    ∃ target,
      Engine.flow opcode.info operands specifics address size =
        .conditionalBranch target condition (address.advance size) := by
  rcases opcode.info_of_fixed isFixed with ⟨isBranch, relative⟩
  have transfer : opcode.info.operation.isTransfer := by rw [isBranch]; rfl
  rcases (tags.relative_iff transfer).mp relative with ⟨target, single⟩
  have found : operands.findSome? Operand.target? = some target := by
    rw [← List.head?_filterMap]
    exact congrArg List.head? single
  refine ⟨target, ?_⟩
  simp [Engine.flow, isBranch, found, stands, Option.filter, mayFail]

/-- The last corrections to a detail record leave its condition alone. -/
theorem exists_specifics_completeDetail
    {detail : Detail}
    {facts : Arm64Specifics}
    (isFacts : detail.specifics = .arm64 facts) :
    ∃ completed,
      (completeDetail detail).specifics = .arm64 completed ∧
        completed.condition = facts.condition := by
  simp only [completeDetail, isFacts]
  exact ⟨_, rfl, rfl⟩

section Records

variable
  {opcode : Opcode}
  {operands : List Operand}
  {recorded : Option Condition}
  (records : opcode.Records operands recorded)
include records

/-- Nothing is on record if there is no condition anywhere. -/
theorem Opcode.Records.eq_none_iff :
    recorded = none ↔
      opcode.testing ≠ .fixed ∧
        ∀ condition, .condition condition ∉ operands := by
  simp only [← mem_conditions]
  rw [Opcode.Records] at records
  generalize opcode.testing = testing at records
  cases records with
  | nothing silent => simp [silent]
  | fixed => simp
  | named single => simp [single]
  | opposed single => simp [single]

/-- An operand is the condition on record, or its opposite. -/
theorem Opcode.Records.eq_some
    {condition : Condition}
    (member : .condition condition ∈ operands) :
    recorded =
      some
        (if opcode.testing = .opposed then condition.inverse
        else condition) := by
  rw [← mem_conditions] at member
  rw [Opcode.Records] at records
  generalize opcode.testing = testing at records
  cases records with
  | nothing silent | fixed _ silent =>
      rw [silent] at member
      cases member
  | named single =>
      rw [single, List.mem_singleton] at member
      rw [member, if_neg (by decide)]
  | opposed single =>
      rw [single, List.mem_singleton] at member
      rw [member, if_pos rfl, Condition.inverse_inverse]

/-- An opcode that stands for a condition has that on record. -/
theorem Opcode.Records.exists_of_fixed (isFixed : opcode.testing = .fixed) :
    ∃ condition,
      opcode.info.condition = some condition ∧
        recorded = some condition := by
  rw [Opcode.Records, isFixed] at records
  cases records with
  | fixed stands => exact ⟨_, stands, rfl⟩

end Records

/--
The detail record names the condition of the instruction: none if there is
none, the one among its operands, or that of its opcode, under which control
goes to the target of a branch. Only where a selection is shown as a set or as
a change the operand is the opposite of the condition on record.
-/
theorem decodeWith_testedCondition
    {options : Options}
    {input : List UInt8}
    {address : Address}
    {decoded : Decoded}
    (success :
      Engine.decodeWith ⟨isa, options⟩ input address true = .ok decoded) :
    ∃ (opcode : Opcode) (detail : Detail) (facts : Arm64Specifics),
      decoded.instruction.opcode = some opcode.id ∧
        decoded.instruction.detail = some detail ∧
        detail.specifics = .arm64 facts ∧
        (facts.condition = none ↔
          opcode.testing ≠ .fixed ∧
            ∀ condition,
              .condition condition ∉ decoded.instruction.operands) ∧
        (∀ condition,
          .condition condition ∈ decoded.instruction.operands →
            facts.condition =
              some
                (if opcode.testing = .opposed then condition.inverse
                else condition)) ∧
        (opcode.testing = .fixed →
          ∃ condition,
            opcode.info.condition = some condition ∧
              facts.condition = some condition ∧
              (condition ≠ .always →
                ∃ target,
                  decoded.instruction.controlFlow =
                    .conditionalBranch target condition
                      (address.advance 4))) := by
  rw [Engine.decodeWith] at success
  split at success
  · cases success
  next word read =>
  rcases Engine.exists_describe_of_decodeWord success with
    ⟨raw, info, decodedRaw, described, rfl⟩
  rcases Engine.run_of_decodeRaw (fun _ => rfl) decodedRaw with ⟨four, ran⟩
  rcases exists_records_of_run four ran with
    ⟨rawOpcode, rawFacts, isRaw, isFacts, rawRecords⟩
  obtain ⟨opcode, isOpcode, records⟩ :=
    exists_records_of_canonicalize (show raw.form.opcode = _ from isRaw)
      rawRecords
  obtain rfl : info = opcode.info := by
    rw [isOpcode] at described
    simpa [isa] using described.symm
  obtain ⟨facts, isCompleted, sameCondition⟩ :=
    exists_specifics_completeDetail
      (show
        (opcode.info.detail (Alias.canonicalize isa.aliases raw.form).operands
          raw.specifics).specifics = _ from isFacts)
  rw [← sameCondition] at records
  refine ⟨opcode, _, facts, congrArg some isOpcode, rfl, isCompleted,
    records.eq_none_iff, fun _ => records.eq_some, ?_⟩
  intro isFixed
  rcases records.exists_of_fixed isFixed with ⟨condition, stands, recorded⟩
  refine ⟨condition, stands, recorded, ?_⟩
  intro mayFail
  rcases exists_tags four ran with ⟨tagged, isTagged, tags⟩
  obtain rfl : tagged = opcode.info :=
    Option.some.inj (isTagged.symm.trans described)
  rcases exists_flow_of_fixed isFixed tags stands mayFail raw.specifics
      word.address word.size with
    ⟨target, goes⟩
  refine ⟨target, goes.trans ?_⟩
  rw [four, Engine.address_of_readWord read]

/-- The bytes of `b.ne 0x1008`. -/
def notEqualBranchBytes : List UInt8 :=
  [0x41, 0x00, 0x00, 0x54]

set_option maxRecDepth 20000 in
/-- A branch under a condition, which its record names. -/
theorem decodeWith_testedCondition_branch :
    ∃ decoded detail facts target,
      Engine.decodeWith ⟨isa, {}⟩ notEqualBranchBytes 0x1000 true =
          .ok decoded ∧
        decoded.instruction.opcode = some Opcode.bNe.id ∧
        decoded.instruction.detail = some detail ∧
        detail.specifics = .arm64 facts ∧
        facts.condition = some .notEqual ∧
        decoded.instruction.controlFlow =
          .conditionalBranch target .notEqual 0x1004 := by
  obtain ⟨decoded, success, isBranch⟩ :
      ∃ decoded,
        Engine.decodeWith ⟨isa, {}⟩ notEqualBranchBytes 0x1000 true =
            .ok decoded ∧
          decoded.instruction.opcode = some Opcode.bNe.id :=
    ⟨_, rfl, rfl⟩
  rcases decodeWith_testedCondition success with
    ⟨opcode, detail, facts, isOpcode, carried, isFacts, -, -, branches⟩
  obtain rfl : opcode = .bNe :=
    Opcode.id_injective (Option.some.inj (isOpcode.symm.trans isBranch))
  rcases branches rfl with ⟨condition, stands, recorded, flows⟩
  cases stands
  rcases flows (by decide) with ⟨target, goes⟩
  exact ⟨decoded, detail, facts, target, success, isBranch, carried, isFacts,
    recorded, goes⟩

/-- The bytes of `csinc w0, wzr, wzr, eq`, which is shown as `cset w0, ne`. -/
def notEqualSetBytes : List UInt8 :=
  [0xe0, 0x07, 0x9f, 0x1a]

set_option maxRecDepth 20000 in
/-- A set has the opposite of the condition on record as its operand. -/
theorem decodeWith_testedCondition_set :
    ∃ decoded detail facts,
      Engine.decodeWith ⟨isa, {}⟩ notEqualSetBytes 0x1000 true =
          .ok decoded ∧
        decoded.instruction.opcode = some Opcode.cset.id ∧
        .condition .notEqual ∈ decoded.instruction.operands ∧
        decoded.instruction.detail = some detail ∧
        detail.specifics = .arm64 facts ∧
        facts.condition = some .equal ∧
        facts.condition ≠ some .notEqual :=
  ⟨_, _, _, rfl, rfl, by decide, rfl, rfl, rfl, by decide⟩

end Arm64

end MachineCode
