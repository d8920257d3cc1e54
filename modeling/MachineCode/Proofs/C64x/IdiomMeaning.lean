import MachineCode.Proofs.Alias
import MachineCode.Proofs.C64x.Layout

/-!
# C64x idioms mean the same

What the sums, differences and exclusive disjunctions of the units leave in
the destination, for all contents of the registers (`computed?`), and what
the idioms stand for (`Opcode.aliasValue?`). The units .L and .S combine the
first source with the second, the units .D the second with the first; so an
idiom that looks for a constant in the first place finds it on the former
only. No idiom changes the destination or the value (`MeansSame`), and none
applies where a pair of registers is an operand.
-/

namespace MachineCode.C64x

/-! ## Values -/

/-- What the registers hold. -/
abbrev Contents :=
  Register → BitVec 32

/--
The first source of a word: a register of the unit's side, or a constant of
five bits, which has a sign except on the units .D.
-/
def firstValue
    (contents : Contents)
    (unit : FunctionalUnit)
    (constant : Bool)
    (value : Nat) :
    BitVec 32 :=
  if constant then
    if unit = .d then
      .ofNat 32 (bitField value 13 5)
    else
      .ofInt 32 (signExtend (bitField value 13 5) 5)
  else
    contents (nearRegister value 13)

/-- The second source of a word; the units .D have no cross path for it. -/
def secondRegister (unit : FunctionalUnit) (value : Nat) : Register :=
  if unit = .d then nearRegister value 18 else secondSource value

/-- What an opcode makes of two numbers, if it is one of the three. -/
def Opcode.operate? :
    Opcode → Option (BitVec 32 → BitVec 32 → BitVec 32)
  | .add => some fun left right => left + right
  | .sub => some fun left right => left - right
  | .xor => some fun left right => left ^^^ right
  | _ => none

/-- What a word computes on a unit. -/
def computed?
    (contents : Contents)
    (opcode : Opcode)
    (unit : FunctionalUnit)
    (constant : Bool)
    (value : Nat) :
    Option (BitVec 32) :=
  let first := firstValue contents unit constant value
  let second := contents (secondRegister unit value)
  opcode.operate?.map fun operate =>
    if unit = .d then operate second first else operate first second

/-- What an idiom stands for. -/
def Opcode.aliasValue?
    (contents : Contents)
    (opcode : Opcode)
    (operands : List Operand) :
    Option (BitVec 32) :=
  match opcode, operands with
  | .mv, [.register source, _] => some (contents source)
  | .neg, [.register source, _] => some (-contents source)
  | .not, [.register source, _] => some (~~~contents source)
  | .zero, [_] => some 0
  | _, _ => none

/-- Whether one of some operands is a constant. -/
def hasConstant (operands : List Operand) : Bool :=
  operands.any fun operand => operand.kind = .immediate

/-- Whether an idiom leaves in the same destination what a word computes. -/
structure MeansSame
    (opcode : Opcode)
    (unit : FunctionalUnit)
    (value : Nat)
    (operands : List Operand)
    (preferred : Opcode)
    (reduced : List Operand) :
    Prop where
  destination :
    ∃ register,
      operands.getLast? = some (.register register) ∧
        reduced.getLast? = some (.register register)
  value_eq :
    ∀ contents, ∃ result,
      preferred.aliasValue? contents reduced = some result ∧
        computed? contents opcode unit (hasConstant operands) value =
          some result

/-! ## Operands in their order -/

/-- The operands of a unit without pairs. -/
def inOrder (unit : FunctionalUnit) (source : FirstSource) (value : Nat) :
    List Operand :=
  let first := source.operandOf value
  let second := .register (secondRegister unit value)
  let destination := .register (nearRegister value 23)
  if unit = .d then
    [second, first, destination]
  else
    [first, second, destination]

/-- Whether a unit has such a first source. -/
def takes (unit : FunctionalUnit) : FirstSource → Bool
  | .register => true
  | .signed => unit ≠ .d
  | .unsigned => unit = .d

section Sources

variable
  {unit : FunctionalUnit}
  {source : FirstSource}
  {value : Nat}
  {contents : Contents}

theorem hasConstant_inOrder :
    hasConstant (inOrder unit source value) = decide (source ≠ .register) := by
  rw [inOrder]
  split <;> cases source <;> rfl

theorem firstValue_register :
    firstValue contents unit (hasConstant (inOrder unit .register value))
        value =
      contents (nearRegister value 13) := by
  rw [hasConstant_inOrder]
  rfl

/-- A first source that is a constant has its value on each unit. -/
theorem firstValue_of_isConstant
    (taken : takes unit source)
    {number : Int}
    (constant : (source.operandOf value).isConstant number) :
    firstValue contents unit (hasConstant (inOrder unit source value))
        value =
      .ofInt 32 number := by
  rw [hasConstant_inOrder, firstValue]
  cases source with
  | register => cases constant
  | signed =>
      have other : unit ≠ .d := of_decide_eq_true taken
      have same := of_decide_eq_true constant
      rw [if_neg other, ← Option.some.inj same]
      rfl
  | unsigned =>
      have isD : unit = .d := of_decide_eq_true taken
      have same := of_decide_eq_true constant
      rw [if_pos isD, ← Option.some.inj same, BitVec.ofInt_natCast]
      rfl

/-- The destination comes last on each unit. -/
theorem getLast?_inOrder :
    (inOrder unit source value).getLast? =
      some (.register (nearRegister value 23)) := by
  rw [inOrder]
  split <;> rfl

end Sources

/-! ## Idioms -/

section Idioms

variable
  {unit : FunctionalUnit}
  {source : FirstSource}
  {value : Nat}
  {reduced : List Operand}

/-- What becomes a zero is a difference of one register. -/
theorem of_zeroOf
    (reduces : zeroOf (inOrder unit source value) = some reduced) :
    source = .register ∧
      nearRegister value 13 = secondRegister unit value ∧
      reduced = [.register (nearRegister value 23)] := by
  rw [inOrder] at reduces
  cases source with
  | signed | unsigned => split at reduces <;> cases reduces
  | register =>
      split at reduces
      · rcases Option.ite_none_right_eq_some.mp reduces with ⟨equal, same⟩
        cases same
        exact ⟨rfl, equal.symm, rfl⟩
      · rcases Option.ite_none_right_eq_some.mp reduces with ⟨equal, same⟩
        cases same
        exact ⟨rfl, equal, rfl⟩

/-- What becomes a move has the first source zero. -/
theorem of_moveOf
    (reduces : moveOf (inOrder unit source value) = some reduced) :
    (source.operandOf value).isConstant 0 ∧
      reduced =
        [.register (secondRegister unit value),
          .register (nearRegister value 23)] := by
  rw [inOrder] at reduces
  split at reduces
  · rcases Option.ite_none_right_eq_some.mp reduces with ⟨constant, same⟩
    cases same
    rw [Bool.and_eq_true] at constant
    exact ⟨constant.1, rfl⟩
  · rw [moveOf] at reduces
    split at reduces
    · next constant =>
      cases reduces
      rw [Bool.and_eq_true] at constant
      exact ⟨constant.1, rfl⟩
    · cases reduces

/-- A rule for a constant in the first place does not apply on .D. -/
theorem of_afterConstant
    {number : Int}
    (reduces :
      afterConstant number (inOrder unit source value) = some reduced) :
    unit ≠ .d ∧
      (source.operandOf value).isConstant number ∧
      reduced =
        [.register (secondRegister unit value),
          .register (nearRegister value 23)] := by
  rw [inOrder] at reduces
  split at reduces
  · cases reduces
  · next other =>
    rcases Option.ite_none_right_eq_some.mp reduces with ⟨constant, same⟩
    cases same
    exact ⟨other, constant, rfl⟩

theorem meansSame_zeroOf
    (reduces : zeroOf (inOrder unit source value) = some reduced) :
    MeansSame .sub unit value (inOrder unit source value) .zero reduced := by
  rcases of_zeroOf reduces with ⟨rfl, equal, rfl⟩
  constructor
  · exact ⟨_, getLast?_inOrder, rfl⟩
  · intro contents
    refine ⟨0, rfl, ?_⟩
    simp only [computed?, Opcode.operate?, Option.map_some,
      firstValue_register, equal, BitVec.sub_self, ite_self]
    rfl

theorem meansSame_moveOf
    (taken : takes unit source)
    (reduces : moveOf (inOrder unit source value) = some reduced) :
    MeansSame .add unit value (inOrder unit source value) .mv reduced := by
  rcases of_moveOf reduces with ⟨constant, rfl⟩
  constructor
  · exact ⟨_, getLast?_inOrder, rfl⟩
  · intro contents
    refine ⟨contents (secondRegister unit value), rfl, ?_⟩
    have zero : BitVec.ofInt 32 0 = 0#32 := rfl
    simp only [computed?, Opcode.operate?, Option.map_some,
      firstValue_of_isConstant taken constant, zero, BitVec.add_zero,
      BitVec.zero_add, ite_self]

theorem meansSame_neg
    (taken : takes unit source)
    (reduces :
      afterConstant 0 (inOrder unit source value) = some reduced) :
    MeansSame .sub unit value (inOrder unit source value) .neg reduced := by
  rcases of_afterConstant reduces with ⟨other, constant, rfl⟩
  constructor
  · exact ⟨_, getLast?_inOrder, rfl⟩
  · intro contents
    refine ⟨-contents (secondRegister unit value), rfl, ?_⟩
    have zero : BitVec.ofInt 32 0 = 0#32 := rfl
    simp only [computed?, Opcode.operate?, Option.map_some, if_neg other,
      firstValue_of_isConstant taken constant, zero, BitVec.zero_sub]

theorem meansSame_not
    (taken : takes unit source)
    (reduces :
      afterConstant (-1) (inOrder unit source value) = some reduced) :
    MeansSame .xor unit value (inOrder unit source value) .not reduced := by
  rcases of_afterConstant reduces with ⟨other, constant, rfl⟩
  constructor
  · exact ⟨_, getLast?_inOrder, rfl⟩
  · intro contents
    refine ⟨~~~contents (secondRegister unit value), rfl, ?_⟩
    have ones : BitVec.ofInt 32 (-1) = BitVec.allOnes 32 := by decide
    simp only [computed?, Opcode.operate?, Option.map_some, if_neg other,
      firstValue_of_isConstant taken constant, ones, BitVec.allOnes_xor]

end Idioms

/-! ## Formats -/

/-- The unit and the first source of a format without pairs. -/
def Format.sources? : Format → Option (FunctionalUnit × FirstSource)
  | .lRegisters => some (.l, .register)
  | .lConstant => some (.l, .signed)
  | .sRegisters => some (.s, .register)
  | .sConstant => some (.s, .signed)
  | .dRegisters => some (.d, .register)
  | .dConstant => some (.d, .unsigned)
  | _ => none

/-- The formats with pairs of registers that compute. -/
def Format.isLong (format : Format) : Bool :=
  format = .lLongDestination || format = .lLongSource

/-- The formats that an opcode with an idiom may be beside. -/
def Format.suitsIdiom (opcode : Opcode) (format : Format) : Bool :=
  match opcode with
  | .add => format.sources?.isSome || format.isLong
  | .sub | .xor => format.sources?.isSome
  | .nop => format = .nop
  | _ => true

theorem suitsIdiom_of_mem :
    ∀ entry ∈ table.entries, entry.fits (fitsNumbers Format.suitsIdiom) := by
  decide +kernel

section Formats

variable
  {word : Word}
  {result : Reading}
  {format : Format}
  (four : word.size = 4)
include four

/-- What a unit computes from is read in the order of the unit. -/
theorem Format.exists_inOrder_of_read
    {unit : FunctionalUnit}
    {source : FirstSource}
    (sources : format.sources? = some (unit, source))
    (read : format.read word = .ok result) :
    takes unit source ∧
      (unit = .l ∨ unit = .s ∨ unit = .d) ∧
      ∃ facts,
        result.specifics = .c64x facts ∧
          facts.unit = unit ∧
          result.operands = inOrder unit source word.value := by
  cases format with
  | lRegisters | lConstant | sRegisters | sConstant =>
      cases sources
      rcases exists_of_readBinary four read with ⟨under, rfl⟩
      exact ⟨rfl, by decide, _, rfl, rfl, rfl⟩
  | dRegisters | dConstant =>
      cases sources
      rcases exists_of_readAddress four read with ⟨under, rfl⟩
      exact ⟨rfl, by decide, _, rfl, rfl, rfl⟩
  | _ => cases sources

/-- Where a pair is computed, no operand is a constant. -/
theorem Format.moveOf_of_isLong
    (long : format.isLong)
    (read : format.read word = .ok result) :
    moveOf result.operands = none := by
  cases format with
  | lLongDestination =>
      rcases exists_of_readLong_register four read with ⟨under, -, rfl⟩
      rfl
  | lLongSource =>
      rcases exists_of_readLong_pair four read with ⟨under, -, -, rfl⟩
      rfl
  | _ => cases long

end Formats

/-! ## Decoding -/

/-- Operands without pairs. -/
theorem single_inOrder
    (unit : FunctionalUnit)
    (source : FirstSource)
    (value : Nat)
    (list : RegisterList) :
    .registers list ∉ inOrder unit source value := by
  rw [inOrder]
  split <;> cases source <;>
    simp [FirstSource.operandOf, Operand.signedField, Operand.signed,
      Operand.unsigned]

/-- The only operand of a single cycle is a constant. -/
theorem single_of_singleCycle
    {operands reduced : List Operand}
    (reduces : singleCycle operands = some reduced)
    (list : RegisterList) :
    .registers list ∉ operands := by
  unfold singleCycle at reduces
  split at reduces
  · next cycles =>
    rcases Option.ite_none_right_eq_some.mp reduces with ⟨constant, -⟩
    intro member
    cases List.mem_singleton.mp member
    cases constant
  · cases reduces

/-- Whether a form means the same as what a word computes on a unit. -/
def PreservesValue (value : Nat) (raw : RawInstruction) (form : Form) :
    Prop :=
  ∃ opcode preferred facts,
    raw.opcode = opcode.id ∧
      form.opcode = preferred.id ∧
      raw.specifics = .c64x facts ∧
      (facts.unit = .l ∨ facts.unit = .s ∨ facts.unit = .d) ∧
      MeansSame opcode facts.unit value raw.operands preferred form.operands

section Decoding

variable
  {options : Options}
  {word : Word}
  {raw : RawInstruction}

/-- A rule that keeps the value in each order keeps that of a word. -/
theorem preservesValue_of_read
    (four : word.size = 4)
    {opcode preferred : Opcode}
    (named : opcode.id = raw.opcode)
    {format : Format}
    (sources : format.sources?.isSome)
    {result : Reading}
    (read : format.read word = .ok result)
    (operands : raw.operands = result.operands)
    (specifics : raw.specifics = result.specifics)
    {reduce : List Operand → Option (List Operand)}
    {reduced : List Operand}
    (reduces : reduce raw.operands = some reduced)
    (means :
      ∀ {unit source},
        takes unit source →
          reduce (inOrder unit source word.value) = some reduced →
          MeansSame opcode unit word.value (inOrder unit source word.value)
            preferred reduced) :
    (∀ list, .registers list ∉ raw.operands) ∧
      PreservesValue word.value raw ⟨preferred.id, reduced⟩ := by
  rcases Option.isSome_iff_exists.mp sources with ⟨⟨unit, source⟩, sources⟩
  rcases format.exists_inOrder_of_read four sources read with
    ⟨taken, known, facts, isFacts, rfl, ordered⟩
  rw [ordered] at operands
  rw [operands] at reduces
  have meansSame := means taken reduces
  rw [← operands] at meansSame
  constructor
  · rw [operands]
    exact single_inOrder _ _ _
  · exact ⟨opcode, preferred, facts, named.symm, rfl,
      specifics.trans isFacts, known, meansSame⟩

/--
Where an idiom is preferred there is no pair of registers; and unless nothing
is done, the idiom stands for what the word computes, in the same destination.
-/
theorem idioms_mean_same
    (decoded : Engine.decodeRaw ⟨isa, options⟩ word = .ok raw)
    (rewritten : Alias.canonicalize idioms raw.form ≠ raw.form) :
    (∀ list, .registers list ∉ raw.operands) ∧
      (raw.opcode ≠ Opcode.nop.id →
        PreservesValue word.value raw
          (Alias.canonicalize idioms raw.form)) := by
  rcases Alias.exists_of_canonicalize_ne rewritten with
    ⟨rule, member, reduced, named, reduces, result⟩
  rcases exists_read_of_decodeRaw suitsIdiom_of_mem decoded with
    ⟨four, opcode, format, reading, isOpcode, suits, read, operands,
      specifics⟩
  have opcode_eq {known : Opcode} (same : known.id = raw.opcode) :
      known = opcode := by
    rw [← same, Opcode.ofId?_id] at isOpcode
    exact Option.some.inj isOpcode
  rw [result]
  simp only [idioms, List.mem_cons, List.not_mem_nil, or_false] at member
  rcases member with rfl | rfl | rfl | rfl | rfl
  case inl =>
    change Opcode.sub.id = raw.opcode at named
    cases opcode_eq named
    rcases preservesValue_of_read four named suits read operands specifics
      reduces fun _ => meansSame_zeroOf with ⟨single, preserves⟩
    exact ⟨single, fun _ => preserves⟩
  case inr.inl =>
    change Opcode.add.id = raw.opcode at named
    cases opcode_eq named
    rcases Bool.or_eq_true_iff.mp suits with sources | long
    · rcases preservesValue_of_read four named sources read operands
        specifics reduces meansSame_moveOf with ⟨single, preserves⟩
      exact ⟨single, fun _ => preserves⟩
    · change moveOf raw.operands = some reduced at reduces
      rw [operands, format.moveOf_of_isLong four long read] at reduces
      cases reduces
  case inr.inr.inl =>
    change Opcode.sub.id = raw.opcode at named
    cases opcode_eq named
    rcases preservesValue_of_read four named suits read operands specifics
      reduces meansSame_neg with ⟨single, preserves⟩
    exact ⟨single, fun _ => preserves⟩
  case inr.inr.inr.inl =>
    change Opcode.xor.id = raw.opcode at named
    cases opcode_eq named
    rcases preservesValue_of_read four named suits read operands specifics
      reduces meansSame_not with ⟨single, preserves⟩
    exact ⟨single, fun _ => preserves⟩
  case inr.inr.inr.inr =>
    constructor
    · exact single_of_singleCycle reduces
    · intro computes
      exact absurd named.symm computes

/-- The word of `add .D1 a1, 0, a3`. -/
def addedZeroWord : Word :=
  ⟨[0x01, 0x84, 0x09, 0x40], 0x1000, 0x01840940, by simp, by decide⟩

/-- The sum of a register and the constant zero of a unit .D is a move. -/
theorem idioms_mean_same_addedZero :
    ∃ raw,
      Engine.decodeRaw ⟨isa, {}⟩ addedZeroWord = .ok raw ∧
        (Alias.canonicalize idioms raw.form).opcode = Opcode.mv.id ∧
        (∀ list, .registers list ∉ raw.operands) ∧
        PreservesValue addedZeroWord.value raw
          (Alias.canonicalize idioms raw.form) := by
  obtain ⟨raw, decoded, named, preferred⟩ :
      ∃ raw,
        Engine.decodeRaw ⟨isa, {}⟩ addedZeroWord = .ok raw ∧
          raw.opcode = Opcode.add.id ∧
          (Alias.canonicalize idioms raw.form).opcode = Opcode.mv.id :=
    ⟨_, rfl, rfl, rfl⟩
  have rewritten : Alias.canonicalize idioms raw.form ≠ raw.form := by
    intro same
    have kept := preferred.symm.trans (congrArg Form.opcode same)
    exact absurd (kept.trans named) (by decide)
  have computes : raw.opcode ≠ Opcode.nop.id := by
    rw [named]
    decide
  rcases idioms_mean_same decoded rewritten with ⟨single, preserves⟩
  exact ⟨raw, decoded, preferred, single, preserves computes⟩

end Decoding

end MachineCode.C64x
