import MachineCode.Engine
import MachineCode.Proofs.OperandChange
import MachineCode.Table.Meaning
import Mathlib.Algebra.Group.Nat.Defs

/-!
# Words that are moved

A word that is moved to another address keeps its bytes. What is read from it
should stay the same, except that the targets of branches move along; their
distances from the instruction do not change. An instruction set moves
(`Isa.Moves`) if its formats, its preferred forms and its assembly language
have this property. Then everything that is decoded moves
(`Isa.Moves.decodeRaw`, `Isa.Moves.decodeWith`).
-/

namespace MachineCode

/-! ## Moving -/

/-- The word at an address that is `distance` higher. -/
def Word.moved (distance : Address) (word : Word) : Word :=
  { word with address := word.address + distance }

/-- Targets are moved, other operands are left alone. -/
def Operand.moved (distance : Address) : Operand → Operand
  | .relative offset target => .relative offset (target + distance)
  | operand => operand

/-- Every address in the flow of control is moved. -/
def ControlFlow.moved (distance : Address) : ControlFlow → ControlFlow
  | .branch target => .branch (target + distance)
  | .conditionalBranch target condition next =>
    .conditionalBranch (target + distance) condition (next + distance)
  | .indirectBranch targets => .indirectBranch (targets.map (· + distance))
  | .call target returnAddress =>
    .call (target + distance) (returnAddress + distance)
  | .indirectCall returnAddress => .indirectCall (returnAddress + distance)
  | flow => flow

/-- The address of an error is moved. -/
def DecodeError.moved (distance : Address) : DecodeError → DecodeError
  | .insufficientInput address needed available =>
    .insufficientInput (address + distance) needed available
  | .unknownOpcode address bytes =>
    .unknownOpcode (address + distance) bytes
  | .invalidOperand address cause =>
    .invalidOperand (address + distance) cause
  | .invalidEncoding address fault =>
    .invalidEncoding (address + distance) fault
  | .malformedTable table position => .malformedTable table position

/-- The targets among the operands are moved. -/
def Detail.moved (distance : Address) (detail : Detail) : Detail :=
  detail.mapOperands (Operand.moved distance)

/-- The address of an error, or the targets of an instruction, are moved. -/
def Outcome.moved (distance : Address) (outcome : Outcome) : Outcome :=
  match outcome with
  | .error error => .error (error.moved distance)
  | .ok raw => .ok (raw.mapOperands (Operand.moved distance))

/-! ## Words and their fields -/

@[simp]
theorem Word.field?_moved
    (distance : Address)
    (word : Word)
    (start length : Nat) :
    (word.moved distance).field? start length = word.field? start length :=
  rfl

/-! ## Targets -/

namespace Address

/-- The mask of the lowest bits of an address. -/
def lowMask (places : Nat) : Address :=
  BitVec.ofNat 64 (2 ^ places - 1)

/-- An address is made of the bits inside and outside of a mask. -/
theorem and_add_and_not (address mask : Address) :
    (address &&& mask) + (address &&& ~~~mask) = address := by
  have apart : (address &&& mask) &&& (address &&& ~~~mask) = 0 := by
    rw [BitVec.and_comm address (~~~mask), BitVec.and_assoc,
      ← BitVec.and_assoc mask, BitVec.and_not_self]
    simp
  rw [BitVec.add_eq_or_of_and_eq_zero _ _ apart,
    ← BitVec.and_or_distrib_left, BitVec.or_not_self, BitVec.and_allOnes]

section Aligned

variable
  {places : Nat}
  {distance : Address}
  (aligned : 2 ^ places ∣ distance.toNat)
  (small : places ≤ 64)
include aligned small

theorem add_and_lowMask (address : Address) :
    (address + distance) &&& lowMask places =
      address &&& lowMask places := by
  have mask : (lowMask places).toNat = 2 ^ places - 1 := by
    have bound : 2 ^ places ≤ 2 ^ 64 := Nat.pow_le_pow_right (by decide) small
    rw [lowMask, BitVec.toNat_ofNat, Nat.mod_eq_of_lt (by omega)]
  apply BitVec.eq_of_toNat_eq
  rw [BitVec.toNat_and, BitVec.toNat_and, mask,
    Nat.and_two_pow_sub_one_eq_mod, Nat.and_two_pow_sub_one_eq_mod,
    BitVec.toNat_add, Nat.mod_mod_of_dvd _ (Nat.pow_dvd_pow 2 small),
    Nat.add_mod, Nat.mod_eq_zero_of_dvd aligned, Nat.add_zero, Nat.mod_mod]

/-- Clearing low bits commutes with a distance that has none of them. -/
theorem add_and_not_lowMask (address : Address) :
    (address + distance) &&& ~~~lowMask places =
      (address &&& ~~~lowMask places) + distance := by
  apply (BitVec.add_right_inj (address &&& lowMask places)).mp
  calc (address &&& lowMask places) +
        ((address + distance) &&& ~~~lowMask places)
      = ((address + distance) &&& lowMask places) +
          ((address + distance) &&& ~~~lowMask places) := by
        rw [add_and_lowMask aligned small]
    _ = address + distance := and_add_and_not _ _
    _ = (address &&& lowMask places) +
          ((address &&& ~~~lowMask places) + distance) := by
        rw [← BitVec.add_assoc, and_add_and_not]

end Aligned

end Address

/-- A target that is relative to an aligned address moves with the address. -/
theorem Operand.relativeField_add
    {places : Nat}
    {distance : Address}
    (aligned : 2 ^ places ∣ distance.toNat)
    (small : places ≤ 64)
    (raw bits : Nat)
    (scale : Int)
    (address : Address) :
    relativeField raw bits scale (address + distance)
        (Address.lowMask places) =
      (relativeField raw bits scale address
        (Address.lowMask places)).moved distance := by
  rw [relativeField, relativeField, Operand.moved, relativeTarget,
    relativeTarget, Address.add_and_not_lowMask aligned small,
    Address.displace, Address.displace, BitVec.add_assoc, BitVec.add_assoc,
    BitVec.add_comm distance]

/-- As `relativeField_add`, for targets that are relative to any address. -/
theorem Operand.relativeField_add_zero
    (distance : Address)
    (raw bits : Nat)
    (scale : Int)
    (address : Address) :
    relativeField raw bits scale (address + distance) 0 =
      (relativeField raw bits scale address 0).moved distance :=
  @relativeField_add 0 distance (Nat.one_dvd _) (by decide) ..

/-! ## What rules ask of an operand -/

namespace Operand

variable (distance : Address) (operand : Operand)

@[simp]
theorem moved_register (named : Register) :
    (register named).moved distance = .register named :=
  rfl

@[simp]
theorem register?_moved :
    (operand.moved distance).register? = operand.register? := by
  cases operand <;> rfl

@[simp]
theorem isRegister_moved (number : Nat) :
    (operand.moved distance).isRegister number =
      operand.isRegister number := by
  rw [isRegister, isRegister, register?_moved]

@[simp]
theorem isConstant_moved (value : Int) :
    (operand.moved distance).isConstant value = operand.isConstant value := by
  cases operand <;> rfl

@[simp]
theorem kind_moved : (operand.moved distance).kind = operand.kind := by
  cases operand <;> rfl

/-- Two targets differ as much as before. -/
@[simp]
theorem agrees_moved (other : Operand) :
    (operand.moved distance).agrees (other.moved distance) =
      operand.agrees other := by
  cases operand <;> cases other <;> simp [moved, agrees]

end Operand

/-! ## Instruction sets -/

/-- A read whose operands are the same, but for targets that are moved. -/
abbrev ReadsMoved (distance : Address) (here there : Read Reading) : Prop :=
  ReadsChanged (Operand.moved distance) here there

/-- A rule that does not notice that targets are moved. -/
abbrev Alias.Moves
    (distance : Address)
    (reduce : List Operand → Option (List Operand)) :
    Prop :=
  CommutesWith (Operand.moved distance) reduce

/-- An instruction set whose words can be moved. -/
structure Isa.Moves (isa : Isa) (distance : Address) : Prop where
  reads :
    ∀ format word,
      ReadsMoved distance (isa.readOperands format word)
        (isa.readOperands format (word.moved distance))
  reduces : ∀ rule ∈ isa.aliases, Alias.Moves distance rule.reduce
  completes :
    ∀ detail,
      isa.completeDetail (Detail.moved distance detail) =
        (isa.completeDetail detail).moved distance
  leads :
    ∀ form specifics options,
      (isa.render (form.mapOperands (Operand.moved distance)) specifics
          options).leading =
        (isa.render form specifics options).leading

namespace Isa.Moves

variable
  {isa : Isa}
  {distance : Address}
  (moves : isa.Moves distance)
include moves

theorem finishDecode
    (word : Word)
    (opcode format : Nat)
    (violated : Bool) :
    isa.finishDecode (word.moved distance) opcode format violated =
      Outcome.moved distance
        (isa.finishDecode word opcode format violated) := by
  rw [Isa.finishDecode, Isa.finishDecode, moves.reads format word]
  cases isa.readOperands format word with
  | error cause => rfl
  | ok reading => rfl

/-- A moved word takes the same way through the entries of a table. -/
theorem runEntries
    (features : Features)
    (name : String)
    (word : Word)
    (entries : List Entry)
    (pending position field : Nat)
    (violated : Bool) :
    isa.runEntries features name (word.moved distance) entries pending
        position field violated =
      Outcome.moved distance
        (isa.runEntries features name word entries pending position field
          violated) := by
  induction entries generalizing pending position field violated with
  | nil => rfl
  | cons entry rest induction =>
      cases pending with
      | succ pending => exact induction ..
      | zero =>
          cases entry with
          | extract start length =>
              simp only [Isa.runEntries, Word.field?_moved]
              cases word.field? start length with
              | none => rfl
              | some loaded => exact induction ..
          | filter value skip => exact induction ..
          | check start length value skip =>
              simp only [Isa.runEntries, Word.field?_moved]
              cases word.field? start length with
              | none => rfl
              | some found => exact induction ..
          | require predicate skip => exact induction ..
          | expect zeros ones => exact induction ..
          | decode opcode format => exact moves.finishDecode ..
          | fail => rfl

theorem decodeRaw (options : Options) (word : Word) :
    Engine.decodeRaw ⟨isa, options⟩ (word.moved distance) =
      Outcome.moved distance (Engine.decodeRaw ⟨isa, options⟩ word) := by
  have sameSize : (word.moved distance).size = word.size := rfl
  rw [Engine.decodeRaw, Engine.decodeRaw, sameSize]
  cases isa.table? word.size with
  | none => rfl
  | some table => exact moves.runEntries ..

end Isa.Moves

/-! ## Instructions -/

/-- Whether an instruction is another one at an address `distance` higher. -/
structure Instruction.MovedBy
    (distance : Address)
    (here there : Instruction) :
    Prop where
  address_eq : there.address = here.address + distance
  size_eq : there.size = here.size
  bytes_eq : there.bytes = here.bytes
  mnemonic_eq : there.mnemonic = here.mnemonic
  opcode_eq : there.opcode = here.opcode
  operation_eq : there.operation = here.operation
  leading_eq : there.leading = here.leading
  operands_eq : there.operands = here.operands.map (Operand.moved distance)
  controlFlow_eq : there.controlFlow = here.controlFlow.moved distance
  detail_eq : there.detail = here.detail.map (Detail.moved distance)
  /-- Only a target is written differently. -/
  operandText_eq :
    (∀ operand ∈ here.operands, operand.target? = none) →
      there.operandText = here.operandText

/-- Whether one decoding is another one at an address `distance` higher. -/
inductive MovedOutcome (distance : Address) :
    Except DecodeError Decoded → Except DecodeError Decoded → Prop where
  | failed (error : DecodeError) :
      MovedOutcome distance (.error error) (.error (error.moved distance))
  | decoded
      {here there : Decoded}
      (sameStatus : there.status = here.status)
      (moved : here.instruction.MovedBy distance there.instruction) :
      MovedOutcome distance (.ok here) (.ok there)

section Parts

variable (distance : Address)

theorem Operand.target?_moved (operand : Operand) :
    (operand.moved distance).target? =
      operand.target?.map (· + distance) := by
  cases operand <;> rfl

theorem Operand.moved_of_target?_eq_none
    {operand : Operand}
    (untargeted : operand.target? = none) :
    operand.moved distance = operand := by
  cases operand with
  | relative offset target => cases untargeted
  | _ => rfl

theorem Operand.map_moved_of_target?_eq_none
    {operands : List Operand}
    (untargeted : ∀ operand ∈ operands, operand.target? = none) :
    operands.map (Operand.moved distance) = operands := by
  refine (List.map_congr_left fun operand member => ?_).trans
    (List.map_id operands)
  exact moved_of_target?_eq_none distance (untargeted operand member)

theorem findSome?_target?_moved (operands : List Operand) :
    (operands.map (Operand.moved distance)).findSome? Operand.target? =
      (operands.findSome? Operand.target?).map (· + distance) := by
  induction operands with
  | nil => rfl
  | cons operand operands induction =>
      rw [List.map_cons, List.findSome?_cons, List.findSome?_cons,
        Operand.target?_moved, induction]
      cases operand.target? <;> rfl

theorem Address.advance_add (address : Address) (size : Nat) :
    (address + distance).advance size = address.advance size + distance := by
  rw [advance, advance, BitVec.add_assoc, BitVec.add_assoc,
    BitVec.add_comm distance]

theorem Engine.flow_moved
    (info : OpcodeInfo)
    (operands : List Operand)
    (specifics : Specifics)
    (address : Address)
    (size : Nat) :
    flow info (operands.map (Operand.moved distance)) specifics
        (address + distance) size =
      (flow info operands specifics address size).moved distance := by
  simp only [flow, findSome?_target?_moved, Address.advance_add]
  generalize operands.findSome? Operand.target? = target
  generalize Option.filter _ _ = condition
  cases info.operation with
  | jump | conditionalJump =>
      cases target with
      | none => rfl
      | some target => cases condition <;> rfl
  | call => cases target <;> rfl
  | _ => rfl

end Parts

/-! ## Inputs -/

section Inputs

variable
  (distance : Address)
  {order : ByteOrder}
  {input : List UInt8}
  {address : Address}

theorem Word.ofBytes?_moved (size : Nat) :
    ofBytes? order size (address + distance) input =
      (ofBytes? order size address input).map (Word.moved distance) := by
  rw [ofBytes?, ofBytes?]
  split
  · rfl
  · dsimp only
    split <;> rfl

/-- The word that is read, or the error, is moved. -/
theorem WidthRule.readWord_moved (rule : WidthRule) :
    rule.readWord order input (address + distance) =
      match rule.readWord order input address with
      | .error error => .error (error.moved distance)
      | .ok word => .ok (word.moved distance) := by
  rw [readWord, readWord]
  split
  · rfl
  split
  · rfl
  split
  · rfl
  · rw [Word.ofBytes?_moved]
    cases Word.ofBytes? order _ address input <;> rfl

end Inputs

namespace Isa.Moves

variable
  {isa : Isa}
  {distance : Address}
  (moves : isa.Moves distance)
include moves

theorem describe
    (options : Options)
    (word : Word)
    (form : Form)
    (info : OpcodeInfo)
    (specifics : Specifics)
    (wantDetail : Bool) :
    (Engine.describe ⟨isa, options⟩ word form info specifics
        wantDetail).MovedBy distance
      (Engine.describe ⟨isa, options⟩ (word.moved distance)
        (form.mapOperands (Operand.moved distance)) info specifics
        wantDetail) where
  address_eq := rfl
  size_eq := rfl
  bytes_eq := rfl
  mnemonic_eq := rfl
  opcode_eq := rfl
  operation_eq := rfl
  leading_eq := moves.leads ..
  operands_eq := rfl
  controlFlow_eq := Engine.flow_moved ..
  detail_eq := by
    cases wantDetail with
    | false => rfl
    | true =>
        apply congrArg some
        rw [← moves.completes, Detail.moved, ← OpcodeInfo.detail_mapOperands]
        rfl
  operandText_eq := by
    intro untargeted
    have same : form.operands.map (Operand.moved distance) = form.operands :=
      Operand.map_moved_of_target?_eq_none distance untargeted
    rw [Form.mapOperands, same]
    rfl

theorem finishRaw
    (options : Options)
    (word : Word)
    (raw : RawInstruction)
    (wantDetail : Bool) :
    MovedOutcome distance
      (Engine.finishRaw ⟨isa, options⟩ word raw wantDetail)
      (Engine.finishRaw ⟨isa, options⟩ (word.moved distance)
        (raw.mapOperands (Operand.moved distance)) wantDetail) := by
  have preferred :
      Alias.canonicalize isa.aliases
          (raw.mapOperands (Operand.moved distance)).form =
        (Alias.canonicalize isa.aliases raw.form).mapOperands
          (Operand.moved distance) :=
    Alias.canonicalize_mapOperands moves.reduces raw.form
  rw [Engine.finishRaw, Engine.finishRaw, preferred, Form.mapOperands]
  cases isa.info? (Alias.canonicalize isa.aliases raw.form).opcode with
  | none => exact .failed _
  | some info => exact .decoded rfl (moves.describe ..)

/-- Decoding the same bytes at another address gives the same, moved. -/
theorem decodeWith
    (options : Options)
    (input : List UInt8)
    (address : Address)
    (wantDetail : Bool) :
    MovedOutcome distance
      (Engine.decodeWith ⟨isa, options⟩ input address wantDetail)
      (Engine.decodeWith ⟨isa, options⟩ input (address + distance)
        wantDetail) := by
  have read :=
    @WidthRule.readWord_moved distance isa.byteOrder input address
      isa.widthRule
  rw [Engine.decodeWith, Engine.decodeWith, Engine.readWord, Engine.readWord,
    read]
  cases isa.widthRule.readWord isa.byteOrder input address with
  | error error => exact .failed error
  | ok word =>
      dsimp only
      rw [Engine.decodeWord, Engine.decodeWord, moves.decodeRaw]
      cases Engine.decodeRaw ⟨isa, options⟩ word with
      | error error => exact .failed error
      | ok raw => exact moves.finishRaw options word raw wantDetail

end Isa.Moves

end MachineCode
