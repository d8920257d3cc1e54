import MachineCode.Proofs.RiscV.Shape
import MachineCode.Proofs.Text

/-!
# The text of an operand tells the operand

Of two operands of one kind, the text tells which of them it stands for
(`Kind.Legible`): registers and control registers have different names, and
numbers are known from their digits, whether these are decimal or not. This
holds for each of the ways in which an opcode writes its operands
(`legible_operandTextOf`), so a list of texts tells the list of operands.
-/

namespace MachineCode.RiscV

/-! ## Names -/

theorem Bank.unbroken_name (xlen : Xlen) (bank : Bank) :
    ∀ number < 32, Text.Unbroken (bank.register xlen number).name := by
  cases xlen <;> cases bank <;> decide +kernel

theorem Bank.name_injective (xlen : Xlen) (bank : Bank) :
    ∀ left < 32, ∀ right < 32,
      (bank.register xlen left).name = (bank.register xlen right).name →
        left = right := by
  cases xlen <;> cases bank <;> decide +kernel

/-- The numbers of the control registers that have a name. -/
def namedControls : List Nat :=
  [0x001, 0x002, 0x003, 0xc00, 0xc01, 0xc02, 0x100, 0x104, 0x105, 0x140,
    0x141, 0x142, 0x143, 0x144, 0x180, 0x300, 0x301, 0x304, 0x305, 0x340,
    0x341, 0x342, 0x343, 0x344, 0xf14]

theorem mem_namedControls
    {number : Nat}
    {name : String}
    (named : controlName? number = some name) :
    number ∈ namedControls := by
  unfold controlName? at named
  split at named <;> first | decide | cases named

/-- Whether a text is no part of a list, and no number in hexadecimal. -/
def IsName (text : String) : Prop :=
  Text.Unbroken text ∧ text.toList.head? ≠ some '0'

instance (text : String) : Decidable (IsName text) :=
  inferInstanceAs (Decidable (_ ∧ _))

theorem isName_of_controlName? :
    ∀ number ∈ namedControls,
      ∀ name ∈ controlName? number, IsName name := by
  decide +kernel

theorem controlName?_injective :
    ∀ left ∈ namedControls, ∀ right ∈ namedControls,
      controlName? left = controlName? right → left = right := by
  decide +kernel

/-- The text of a control register is its name, or else its number. -/
theorem controlRegister_name_eq_or (number : Nat) :
    (number ∈ namedControls ∧
        controlName? number = some (controlRegister number).name ∧
        IsName (controlRegister number).name) ∨
      (controlRegister number).name = Text.hex number := by
  cases named : controlName? number with
  | none =>
      refine .inr ?_
      rw [controlRegister, named]
      rfl
  | some name =>
      have member := mem_namedControls named
      have same : (controlRegister number).name = name := by
        rw [controlRegister, named]
        rfl
      rw [same]
      exact .inl
        ⟨member, rfl, isName_of_controlName? number member name named⟩

theorem unbroken_controlRegister (number : Nat) :
    Text.Unbroken (controlRegister number).name := by
  rcases controlRegister_name_eq_or number with ⟨-, -, isName⟩ | isNumber
  · exact isName.1
  · rw [isNumber]
    exact Text.unbroken_hex number

/-- A name is not the hexadecimal text of a number. -/
theorem IsName.ne_hex
    {text : String}
    (isName : IsName text)
    (number : Nat) :
    text ≠ Text.hex number := by
  rintro rfl
  exact isName.2 (by rw [Text.toList_hex]; rfl)

theorem controlRegister_name_injective
    {left right : Nat}
    (same : (controlRegister left).name = (controlRegister right).name) :
    left = right := by
  rcases controlRegister_name_eq_or left with
    ⟨leftMember, leftNamed, leftName⟩ | leftNumber
  · rcases controlRegister_name_eq_or right with
      ⟨rightMember, rightNamed, -⟩ | rightNumber
    · refine controlName?_injective left leftMember right rightMember ?_
      rw [leftNamed, rightNamed, same]
    · exact absurd (same.trans rightNumber) (leftName.ne_hex right)
  · rcases controlRegister_name_eq_or right with
      ⟨-, -, rightName⟩ | rightNumber
    · exact absurd (same.symm.trans leftNumber) (rightName.ne_hex left)
    · exact Text.hex_injective (leftNumber.symm.trans (same.trans rightNumber))

/-! ## Numbers -/

/-- A number in range is known from its pattern of 64 bits. -/
theorem InRange.eq_of_twosComplement_eq
    {left right : Int}
    (leftInRange : InRange left)
    (rightInRange : InRange right)
    (same : twosComplement left 64 = twosComplement right 64) :
    left = right := by
  have leftBack :=
    @signExtend_twosComplement left 63 (by decide) leftInRange.1
      leftInRange.2
  have rightBack :=
    @signExtend_twosComplement right 63 (by decide) rightInRange.1
      rightInRange.2
  rw [← leftBack, ← rightBack, same]

theorem inRange_of_lt {bits value : Nat}
    (narrow : bits ≤ 32)
    (small : value < 2 ^ bits) :
    InRange value := by
  have wide : 2 ^ bits ≤ 2 ^ 32 := Nat.pow_le_pow_right (by decide) narrow
  constructor <;> omega

/-- A distance in range is known from where it leads. -/
theorem InRange.eq_of_displace_eq
    {left right : Int}
    (leftInRange : InRange left)
    (rightInRange : InRange right)
    {address : Address}
    (same : address.displace left = address.displace right) :
    left = right := by
  have samePattern := (BitVec.add_right_inj address).mp same
  have sameValue := congrArg BitVec.toInt samePattern
  rw [BitVec.toInt_ofInt, BitVec.toInt_ofInt] at sameValue
  rcases leftInRange with ⟨leftLow, leftHigh⟩
  rcases rightInRange with ⟨rightLow, rightHigh⟩
  rwa [Int.bmod_eq_of_le (by omega) (by omega),
    Int.bmod_eq_of_le (by omega) (by omega)] at sameValue

/-- Whether a way of writing immediates tells their values. -/
structure TellsValue (write : Immediate → String) : Prop where
  unbroken : ∀ immediate, Text.Unbroken (write immediate)
  injective :
    ∀ {left right}, InRange left.value → InRange right.value →
      write left = write right → left.value = right.value

theorem tellsValue_immediateText (options : Options) :
    TellsValue (immediateText options) where
  unbroken immediate := by
    rw [immediateText]
    split
    · exact Text.unbroken_hex _
    · exact Text.unbroken_decimal _
  injective leftInRange rightInRange same := by
    rw [immediateText, immediateText] at same
    -- A negative number may be a pattern, and the other one decimal.
    split at same <;> split at same
    · exact leftInRange.eq_of_twosComplement_eq rightInRange
        (Text.hex_injective same)
    · exact absurd same (Text.hex_ne_decimal _ _)
    · exact absurd same.symm (Text.hex_ne_decimal _ _)
    · exact Text.decimal_injective same

theorem tellsValue_pattern :
    TellsValue fun immediate => Text.hex immediate.toUnsigned64 where
  unbroken _ := Text.unbroken_hex _
  injective leftInRange rightInRange same :=
    leftInRange.eq_of_twosComplement_eq rightInRange
      (Text.hex_injective same)

/-! ## Memory -/

theorem toList_referenceText (base : Register) (displacement : Int)
    (size : Nat) :
    (referenceText { base := some base, displacement, size }).toList =
      (toString displacement).toList ++
        '(' :: (base.name.toList ++ [')']) := by
  simp [referenceText]

theorem unbroken_referenceText
    {base : Register}
    (unbroken : Text.Unbroken base.name)
    (displacement : Int)
    (size : Nat) :
    Text.Unbroken
      (referenceText { base := some base, displacement, size }) where
  nonempty := by
    rw [Ne, ← String.toList_eq_nil_iff, toList_referenceText]
    exact List.append_ne_nil_of_right_ne_nil _ (List.cons_ne_nil _ _)
  free := by
    rw [toList_referenceText, List.mem_append, not_or]
    refine ⟨(Text.unbroken_decimal displacement).free, ?_⟩
    rw [List.mem_cons, List.mem_append, not_or, not_or]
    exact ⟨by decide, unbroken.free, by decide⟩

/-- The distance and the name of the base are known from the text. -/
theorem eq_of_referenceText_eq
    {leftBase rightBase : Register}
    {left right : Int}
    {size : Nat}
    (same :
      referenceText { base := some leftBase, displacement := left, size } =
        referenceText
          { base := some rightBase, displacement := right, size }) :
    left = right ∧ leftBase.name = rightBase.name := by
  have sameText := congrArg String.toList same
  rw [toList_referenceText, toList_referenceText] at sameText
  rcases
      Text.append_inj_of_starts
        (Text.not_mem_decimal left (by decide) rfl)
        (Text.not_mem_decimal right (by decide) rfl)
        (Text.starts_cons '(' _) (Text.starts_cons '(' _) sameText with
    ⟨sameDisplacement, sameRest⟩
  rw [List.cons_inj_right, List.append_left_inj, String.toList_inj]
    at sameRest
  exact
    ⟨Text.decimal_injective (String.toList_inj.mp sameDisplacement),
      sameRest⟩

/-! ## Operands -/

/-- Whether the texts of the operands of a kind tell them apart in a list. -/
structure Kind.Legible
    (xlen : Xlen)
    (address : Address)
    (write : Operand → String)
    (kind : Kind) :
    Prop where
  unbroken :
    ∀ {operand}, kind.Has xlen address operand →
      Text.Unbroken (write operand)
  injective :
    ∀ {left right}, kind.Has xlen address left →
      kind.Has xlen address right → write left = write right → left = right

section Legible

variable {xlen : Xlen} {address : Address} {options : Options}

theorem legible_register (bank : Bank) :
    (Kind.register bank).Legible xlen address (operandText options) where
  unbroken has := by
    cases has with
    | register small => exact bank.unbroken_name xlen _ small
  injective leftHas rightHas same := by
    cases leftHas with
    | register leftSmall =>
      cases rightHas with
      | register rightSmall =>
        rw [bank.name_injective xlen _ leftSmall _ rightSmall same]

theorem legible_memory (size : Nat) :
    (Kind.memory size).Legible xlen address (operandText options) where
  unbroken has := by
    cases has with
    | memory small =>
      exact unbroken_referenceText (Bank.integer.unbroken_name xlen _ small)
        _ size
  injective leftHas rightHas same := by
    cases leftHas with
    | memory leftSmall =>
      cases rightHas with
      | memory rightSmall =>
        rcases eq_of_referenceText_eq same with ⟨sameDistance, sameName⟩
        rw [sameDistance,
          Bank.integer.name_injective xlen _ leftSmall _ rightSmall
            sameName]

theorem legible_target :
    Kind.target.Legible xlen address (operandText options) where
  unbroken has := by
    cases has with
    | target => exact Text.unbroken_hex _
  injective leftHas rightHas same := by
    cases leftHas with
    | target leftInRange =>
      cases rightHas with
      | target rightInRange =>
        rw [leftInRange.eq_of_displace_eq rightInRange
          (BitVec.eq_of_toNat_eq (Text.hex_injective same))]

theorem legible_control :
    Kind.control.Legible xlen address (operandText options) where
  unbroken has := by
    cases has with
    | control number => exact unbroken_controlRegister number
  injective leftHas rightHas same := by
    cases leftHas with
    | control left =>
      cases rightHas with
      | control right => rw [controlRegister_name_injective same]

section Immediates

variable
  {write : Operand → String}
  {text : Immediate → String}
  (tells : TellsValue text)
  (writes : ∀ immediate, write (.immediate immediate) = text immediate)
include tells writes

theorem legible_signed (bits : Nat) :
    (Kind.signed bits).Legible xlen address write where
  unbroken has := by
    cases has with
    | signed =>
      rw [Operand.signed, writes]
      exact tells.unbroken _
  injective leftHas rightHas same := by
    cases leftHas with
    | signed leftInRange =>
      cases rightHas with
      | signed rightInRange =>
        rw [Operand.signed, Operand.signed, writes, writes] at same
        have sameValue := tells.injective leftInRange rightInRange same
        exact congrArg (Operand.signed · bits) sameValue

theorem legible_unsigned (bits : Nat) :
    (Kind.unsigned bits).Legible xlen address write where
  unbroken has := by
    cases has with
    | unsigned =>
      rw [Operand.unsigned, writes]
      exact tells.unbroken _
  injective leftHas rightHas same := by
    cases leftHas with
    | unsigned narrow leftSmall =>
      cases rightHas with
      | unsigned _ rightSmall =>
        rw [Operand.unsigned, Operand.unsigned, writes, writes] at same
        have sameValue :=
          tells.injective (inRange_of_lt narrow leftSmall)
            (inRange_of_lt narrow rightSmall) same
        exact congrArg (Operand.unsigned · bits) (Int.ofNat.inj sameValue)

end Immediates

theorem legible_operandText (kind : Kind) :
    kind.Legible xlen address (operandText options) := by
  have tells := tellsValue_immediateText options
  cases kind with
  | register bank => exact legible_register bank
  | signed bits => exact legible_signed tells (fun _ => rfl) bits
  | unsigned bits => exact legible_unsigned tells (fun _ => rfl) bits
  | memory size => exact legible_memory size
  | target => exact legible_target
  | control => exact legible_control

theorem Kind.Legible.of_eq
    {kind : Kind}
    {write other : Operand → String}
    (legible : kind.Legible xlen address write)
    (same :
      ∀ {operand}, kind.Has xlen address operand →
        other operand = write operand) :
    kind.Legible xlen address other where
  unbroken has := by
    rw [same has]
    exact legible.unbroken has
  injective leftHas rightHas sameText := by
    rw [same leftHas, same rightHas] at sameText
    exact legible.injective leftHas rightHas sameText

theorem legible_upperText (kind : Kind) :
    kind.Legible xlen address (upperText options) := by
  cases kind with
  | signed bits =>
      exact legible_signed tellsValue_pattern (fun _ => rfl) bits
  | unsigned bits =>
      exact legible_unsigned tellsValue_pattern (fun _ => rfl) bits
  | register | memory | target | control =>
      refine (@legible_operandText xlen address options _).of_eq ?_
      intro operand has
      cases has
      rfl

theorem legible_fenceText :
    (Kind.unsigned 4).Legible xlen address fenceText := by
  have unbroken :
      ∀ value < 2 ^ 4, Text.Unbroken (fenceText (.unsigned value 4)) := by
    decide +kernel
  have injective :
      ∀ left < 2 ^ 4, ∀ right < 2 ^ 4,
        fenceText (.unsigned left 4) = fenceText (.unsigned right 4) →
          left = right := by
    decide +kernel
  constructor
  · intro operand has
    cases has with
    | unsigned _ small => exact unbroken _ small
  · intro left right leftHas rightHas same
    cases leftHas with
    | unsigned _ leftSmall =>
      cases rightHas with
      | unsigned _ rightSmall =>
        rw [injective _ leftSmall _ rightSmall same]

/-- However an opcode writes its operands, their texts tell them. -/
theorem legible_operandTextOf
    {opcode : Opcode}
    {shape : Shape}
    (isShape : opcode.shape? xlen = some shape) :
    ∀ kind ∈ shape.kinds,
      kind.Legible xlen address (operandTextOf (some opcode) options) := by
  intro kind member
  unfold operandTextOf
  split
  · next same =>
    cases same
    -- Only sets of four accesses are told by their letters.
    have fence :
        Opcode.fence.shape? xlen =
          some ⟨[.unsigned 4, .unsigned 4], false⟩ := by
      cases xlen <;> decide +kernel
    rw [fence, Option.some.injEq] at isShape
    subst isShape
    simp only [List.mem_cons, List.not_mem_nil, or_false, or_self] at member
    rw [member]
    exact legible_fenceText
  · exact legible_upperText kind
  · exact legible_upperText kind
  · exact legible_upperText kind
  · exact legible_operandText kind

/-! ## Lists of operands -/

section Lists

variable
  {write : Operand → String}
  {kinds : List Kind}
  (legible : ∀ kind ∈ kinds, kind.Legible xlen address write)
include legible

theorem unbroken_of_mem_map
    {operands : List Operand}
    (has : List.Forall₂ (Kind.Has xlen address) kinds operands) :
    ∀ text ∈ operands.map write, Text.Unbroken text := by
  induction has with
  | nil => simp
  | cons first _ induction =>
      rw [List.forall_mem_cons] at legible
      rw [List.map_cons, List.forall_mem_cons]
      exact ⟨legible.1.unbroken first, induction legible.2⟩

/-- The texts of operands tell the operands. -/
theorem eq_of_map_eq
    {lefts rights : List Operand}
    (leftsHave : List.Forall₂ (Kind.Has xlen address) kinds lefts)
    (rightsHave : List.Forall₂ (Kind.Has xlen address) kinds rights)
    (same : lefts.map write = rights.map write) :
    lefts = rights := by
  induction leftsHave generalizing rights with
  | nil =>
      cases rightsHave
      rfl
  | cons leftFirst _ induction =>
      cases rightsHave with
      | cons rightFirst rightOthers =>
        rw [List.forall_mem_cons] at legible
        rw [List.map_cons, List.map_cons, List.cons.injEq] at same
        rw [legible.1.injective leftFirst rightFirst same.1,
          induction legible.2 rightOthers same.2]

end Lists

end Legible

/-! ## Rounding modes -/

theorem unbroken_roundingText (specifics : Specifics) :
    ∀ text ∈ roundingText specifics, Text.Unbroken text := by
  unfold roundingText
  split
  · simp
  · next mode _ =>
    rw [List.forall_mem_singleton]
    cases mode <;> decide
  · simp

/-- Of instructions with a rounding mode, the text tells the mode. -/
theorem eq_of_roundingText_eq
    {left right : Option RoundingMode}
    (both : left.isSome = right.isSome)
    (same : roundingText (.riscV left) = roundingText (.riscV right)) :
    left = right := by
  cases left with
  | none =>
      cases right with
      | none => rfl
      | some => cases both
  | some left =>
      cases right with
      | none => cases both
      | some right =>
          revert same
          cases left <;> cases right <;> decide

end MachineCode.RiscV
