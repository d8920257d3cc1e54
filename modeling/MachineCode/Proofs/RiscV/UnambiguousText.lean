import MachineCode.Proofs.FirstWord
import MachineCode.Proofs.RiscV.OperandText

/-!
# The assembly text tells the instruction

Two instructions at one address that have the same text are of the same opcode
and have the same operands and rounding mode (`eq_of_text_eq`). The mnemonic
ends before the first space. Three mnemonics belong to two opcodes each
(`Opcode.sharing`); these have different numbers of operands, and so different
numbers of texts between the commas.
-/

namespace MachineCode

/-! ## Mnemonics and operands -/

namespace Instruction

/-- What follows the mnemonic in the text of an instruction. -/
def afterMnemonic (instruction : Instruction) : List Char :=
  if instruction.operandText.isEmpty then []
  else ' ' :: instruction.operandText.toList

theorem toList_text
    {instruction : Instruction}
    (bare : instruction.leading = none) :
    instruction.text.toList =
      instruction.mnemonic.toList ++ instruction.afterMnemonic := by
  simp only [text, afterMnemonic, bare]
  split <;> simp

theorem starts_afterMnemonic (instruction : Instruction) :
    Text.Starts ' ' instruction.afterMnemonic := by
  rw [afterMnemonic]
  split
  · exact Text.starts_nil _
  · exact Text.starts_cons ' ' _

theorem operandText_eq_of_afterMnemonic_eq
    {left right : Instruction}
    (same : left.afterMnemonic = right.afterMnemonic) :
    left.operandText = right.operandText := by
  rw [afterMnemonic, afterMnemonic] at same
  split at same <;> split at same
  · next leftEmpty rightEmpty =>
    rw [String.isEmpty_iff] at leftEmpty rightEmpty
    rw [leftEmpty, rightEmpty]
  · cases same
  · cases same
  · rw [List.cons_inj_right, String.toList_inj] at same
    exact same

/-- The text tells the mnemonic from the text of the operands. -/
theorem parts_eq_of_text_eq
    {left right : Instruction}
    (same : left.text = right.text)
    (leftBare : left.leading = none)
    (rightBare : right.leading = none)
    (leftFree : ' ' ∉ left.mnemonic.toList)
    (rightFree : ' ' ∉ right.mnemonic.toList) :
    left.mnemonic = right.mnemonic ∧
      left.operandText = right.operandText := by
  have sameText := congrArg String.toList same
  rw [toList_text leftBare, toList_text rightBare] at sameText
  rcases
      Text.append_inj_of_starts leftFree rightFree
        left.starts_afterMnemonic right.starts_afterMnemonic sameText with
    ⟨sameMnemonic, sameRest⟩
  exact ⟨String.toList_inj.mp sameMnemonic,
    operandText_eq_of_afterMnemonic_eq sameRest⟩

end Instruction

namespace RiscV

namespace Opcode

theorem ofNat_id (opcode : Opcode) : Opcode.ofNat opcode.id = opcode := by
  cases opcode <;> rfl

theorem id_lt_count (opcode : Opcode) : opcode.id < count := by
  cases opcode <;> decide

theorem space_not_mem_mnemonic (opcode : Opcode) :
    ' ' ∉ opcode.info.mnemonic.toList := by
  have each :
      ∀ number < count, ' ' ∉ (Opcode.ofNat number).info.mnemonic.toList := by
    decide +kernel
  have known := each opcode.id opcode.id_lt_count
  rwa [ofNat_id] at known

/-- The pairs of opcodes that share a mnemonic. -/
def sharing : List (Opcode × Opcode) :=
  [(.jal, .jalLink), (.jalr, .jalrLink), (.fence, .fenceAll)]

/-- Whether two opcodes have different mnemonics or are listed. -/
def isTold (left right : Opcode) : Bool :=
  !Nat.beq (Text.code left.info.mnemonic) (Text.code right.info.mnemonic) ||
    sharing.contains (left, right)

theorem isTold_of_lt :
    ∀ right < count, ∀ left < right,
      isTold (Opcode.ofNat left) (Opcode.ofNat right) := by
  decide +kernel

theorem mem_sharing_of_lt
    {left right : Opcode}
    (below : left.id < right.id)
    (same : left.info.mnemonic = right.info.mnemonic) :
    (left, right) ∈ sharing := by
  have told := isTold_of_lt right.id right.id_lt_count left.id below
  rw [ofNat_id, ofNat_id, isTold, same, Nat.beq_refl, Bool.not_true,
    Bool.false_or, List.contains_iff_mem] at told
  exact told

/-- Opcodes of one mnemonic are the same, or a pair that is listed. -/
theorem eq_or_mem_sharing
    {left right : Opcode}
    (same : left.info.mnemonic = right.info.mnemonic) :
    left = right ∨ (left, right) ∈ sharing ∨ (right, left) ∈ sharing := by
  rcases Nat.lt_trichotomy left.id right.id with below | equal | above
  · exact .inr (.inl (mem_sharing_of_lt below same))
  · exact .inl (id_injective equal)
  · exact .inr (.inr (mem_sharing_of_lt above same.symm))

end Opcode

/-! ## Texts between commas -/

section Pieces

variable
  {xlen : Xlen}
  {address : Address}
  {options : Options}
  {opcode : Opcode}
  {shape : Shape}
  (isShape : opcode.shape? xlen = some shape)

/-- The texts that the commas separate. -/
def Opcode.pieces
    (options : Options)
    (opcode : Opcode)
    (operands : List Operand)
    (specifics : Specifics) :
    List String :=
  operands.map (operandTextOf (some opcode) options) ++
    roundingText specifics

section Admits

variable
  {operands : List Operand}
  {specifics : Specifics}
  (admits : shape.Admits xlen address operands specifics)
include admits

include isShape in
theorem unbroken_of_mem_pieces :
    ∀ text ∈ opcode.pieces options operands specifics,
      Text.Unbroken text := by
  intro text member
  rcases List.mem_append.mp member with isOperand | isMode
  · exact unbroken_of_mem_map (legible_operandTextOf isShape)
      admits.operands text isOperand
  · exact unbroken_roundingText specifics text isMode

theorem length_pieces (bare : shape.rounds = false) :
    (opcode.pieces options operands specifics).length =
      shape.kinds.length := by
  rcases admits.rounding with ⟨mode, rfl, rounds⟩
  rw [bare, Option.isSome_eq_false_iff, Option.isNone_iff_eq_none] at rounds
  rw [Opcode.pieces, List.length_append, List.length_map, rounds,
    ← admits.operands.length_eq]
  rfl

end Admits

include isShape in
/-- The texts tell the operands and the rounding mode. -/
theorem eq_of_pieces_eq
    {lefts rights : List Operand}
    {leftSpecifics rightSpecifics : Specifics}
    (leftAdmits : shape.Admits xlen address lefts leftSpecifics)
    (rightAdmits : shape.Admits xlen address rights rightSpecifics)
    (same :
      opcode.pieces options lefts leftSpecifics =
        opcode.pieces options rights rightSpecifics) :
    lefts = rights ∧ leftSpecifics = rightSpecifics := by
  -- The rounding mode comes after as many texts on both sides.
  have sameLength :
      (lefts.map (operandTextOf (some opcode) options)).length =
        (rights.map (operandTextOf (some opcode) options)).length := by
    rw [List.length_map, List.length_map,
      ← leftAdmits.operands.length_eq, rightAdmits.operands.length_eq]
  rcases List.append_inj same sameLength with ⟨sameTexts, sameRounding⟩
  refine ⟨eq_of_map_eq (legible_operandTextOf isShape) leftAdmits.operands
    rightAdmits.operands sameTexts, ?_⟩
  rcases leftAdmits.rounding with ⟨leftMode, rfl, leftRounds⟩
  rcases rightAdmits.rounding with ⟨rightMode, rfl, rightRounds⟩
  rw [eq_of_roundingText_eq (leftRounds.trans rightRounds.symm)
    sameRounding]

end Pieces

/-- Whether two opcodes have different numbers of texts. -/
def Opcode.countsDiffer (xlen : Xlen) (left right : Opcode) : Bool :=
  match left.shape? xlen, right.shape? xlen with
  | some left, some right =>
    !left.rounds && !right.rounds &&
      left.kinds.length ≠ right.kinds.length
  | _, _ => false

/-- Opcodes that share a mnemonic are told apart by the number of operands. -/
theorem countsDiffer_of_mem_sharing (xlen : Xlen) :
    ∀ pair ∈ Opcode.sharing, Opcode.countsDiffer xlen pair.1 pair.2 := by
  cases xlen <;> decide +kernel

section Opcodes

variable
  {xlen : Xlen}
  {address : Address}
  {options : Options}
  {left right : Opcode}
  {leftShape rightShape : Shape}
  (leftIsShape : left.shape? xlen = some leftShape)
  (rightIsShape : right.shape? xlen = some rightShape)
  {lefts rights : List Operand}
  {leftSpecifics rightSpecifics : Specifics}
  (leftAdmits : leftShape.Admits xlen address lefts leftSpecifics)
  (rightAdmits : rightShape.Admits xlen address rights rightSpecifics)
  (samePieces :
    left.pieces options lefts leftSpecifics =
      right.pieces options rights rightSpecifics)
include leftIsShape rightIsShape leftAdmits rightAdmits samePieces

theorem not_mem_sharing : (left, right) ∉ Opcode.sharing := by
  intro member
  have differ := countsDiffer_of_mem_sharing xlen _ member
  simp only [Opcode.countsDiffer, leftIsShape, rightIsShape,
    Bool.and_eq_true, Bool.not_eq_true', decide_eq_true_eq] at differ
  rcases differ with ⟨⟨leftBare, rightBare⟩, different⟩
  refine different ?_
  calc leftShape.kinds.length
      = (left.pieces options lefts leftSpecifics).length :=
        (length_pieces leftAdmits leftBare).symm
    _ = (right.pieces options rights rightSpecifics).length := by
        rw [samePieces]
    _ = rightShape.kinds.length := length_pieces rightAdmits rightBare

/-- The mnemonic and the texts of the operands tell the opcode. -/
theorem opcode_eq (sameMnemonic : left.info.mnemonic = right.info.mnemonic) :
    left = right := by
  rcases Opcode.eq_or_mem_sharing sameMnemonic with same | member | member
  · exact same
  · exact absurd member
      (not_mem_sharing leftIsShape rightIsShape leftAdmits rightAdmits
        samePieces)
  · exact absurd member
      (not_mem_sharing rightIsShape leftIsShape rightAdmits leftAdmits
        samePieces.symm)

end Opcodes

/-! ## Instructions -/

/-- The text of what words at one address decode to tells the instruction. -/
theorem describe_eq_of_text_eq
    {xlen : Xlen}
    {options : Options}
    {leftWord rightWord : Word}
    (sameAddress : leftWord.address = rightWord.address)
    {wantDetail : Bool}
    {left right : Decoded}
    (leftDecodes :
      Engine.decodeWord ⟨isa xlen, options⟩ leftWord wantDetail = .ok left)
    (rightDecodes :
      Engine.decodeWord ⟨isa xlen, options⟩ rightWord wantDetail = .ok right)
    (sameText : left.instruction.text = right.instruction.text) :
    ∃ (opcode : Opcode) (operands : List Operand) (specifics : Specifics),
      left.instruction =
          Engine.describe ⟨isa xlen, options⟩ leftWord ⟨opcode.id, operands⟩
            opcode.info specifics wantDetail ∧
        right.instruction =
          Engine.describe ⟨isa xlen, options⟩ rightWord
            ⟨opcode.id, operands⟩ opcode.info specifics wantDetail := by
  rcases exists_admits_of_decodeWord leftDecodes with
    ⟨leftOpcode, leftOperands, leftSpecifics, leftShape, leftIsShape,
      leftAdmits, leftDescribed⟩
  rcases exists_admits_of_decodeWord rightDecodes with
    ⟨rightOpcode, rightOperands, rightSpecifics, rightShape, rightIsShape,
      rightAdmits, rightDescribed⟩
  rw [leftDescribed, rightDescribed] at sameText
  rcases
      Instruction.parts_eq_of_text_eq sameText rfl rfl
        leftOpcode.space_not_mem_mnemonic
        rightOpcode.space_not_mem_mnemonic with
    ⟨sameMnemonic, sameOperandText⟩
  simp only [Engine.describe, isa, render, Opcode.ofId?_id]
    at sameOperandText
  -- The opcodes may still differ, and with them the ways of writing operands.
  have samePieces :
      leftOpcode.pieces options leftOperands leftSpecifics =
        rightOpcode.pieces options rightOperands rightSpecifics :=
    Text.eq_of_intercalate_eq
      (unbroken_of_mem_pieces leftIsShape leftAdmits)
      (unbroken_of_mem_pieces rightIsShape rightAdmits) sameOperandText
  rw [← sameAddress] at rightAdmits
  cases opcode_eq leftIsShape rightIsShape leftAdmits rightAdmits samePieces
    sameMnemonic
  cases leftIsShape.symm.trans rightIsShape
  rcases eq_of_pieces_eq leftIsShape leftAdmits rightAdmits samePieces with
    ⟨rfl, rfl⟩
  exact ⟨leftOpcode, leftOperands, leftSpecifics, leftDescribed,
    rightDescribed⟩

/--
Two instructions that are decoded at the same address and have the same text
have the same opcode, operands and detail record, which holds the rounding
mode.
-/
theorem eq_of_text_eq
    {xlen : Xlen}
    {options : Options}
    {leftInput rightInput : List UInt8}
    {address : Address}
    {wantDetail : Bool}
    {left right : Decoded}
    (leftDecodes :
      Engine.decodeWith ⟨isa xlen, options⟩ leftInput address wantDetail =
        .ok left)
    (rightDecodes :
      Engine.decodeWith ⟨isa xlen, options⟩ rightInput address wantDetail =
        .ok right)
    (sameText : left.instruction.text = right.instruction.text) :
    left.instruction.opcode = right.instruction.opcode ∧
      left.instruction.operands = right.instruction.operands ∧
      left.instruction.detail = right.instruction.detail := by
  rw [Engine.decodeWith] at leftDecodes rightDecodes
  split at leftDecodes
  · cases leftDecodes
  split at rightDecodes
  · cases rightDecodes
  rename_i leftWord leftRead _ rightWord rightRead
  have sameAddress :=
    (Engine.address_of_readWord leftRead).trans
      (Engine.address_of_readWord rightRead).symm
  rcases
      describe_eq_of_text_eq sameAddress leftDecodes rightDecodes sameText with
    ⟨opcode, operands, specifics, leftDescribed, rightDescribed⟩
  rw [leftDescribed, rightDescribed]
  exact ⟨rfl, rfl, rfl⟩

/-- The bytes of `fence rw, rw`. -/
def fenceBytes : List UInt8 :=
  [0x0f, 0x00, 0x30, 0x03]

/-- The same fence with a register in a field that should be zero. -/
def doubtfulFenceBytes : List UInt8 :=
  [0x8f, 0x00, 0x30, 0x03]

/-- Two fences that differ in a field without meaning have the same text. -/
theorem eq_of_text_eq_fence :
    ∃ left right,
      Engine.decodeWith ⟨isa .rv64, {}⟩ fenceBytes 0x1000 true = .ok left ∧
        Engine.decodeWith ⟨isa .rv64, {}⟩ doubtfulFenceBytes 0x1000 true =
            .ok right ∧
        left.instruction.text = "fence rw, rw" ∧
        left.instruction.text = right.instruction.text ∧
        left.status ≠ right.status ∧
        left.instruction.opcode = right.instruction.opcode ∧
        left.instruction.operands = right.instruction.operands ∧
        left.instruction.detail = right.instruction.detail := by
  obtain ⟨left, leftDecodes, leftText, leftStatus⟩ :
      ∃ left,
        Engine.decodeWith ⟨isa .rv64, {}⟩ fenceBytes 0x1000 true =
            .ok left ∧
          left.instruction.text = "fence rw, rw" ∧
          left.status = .success :=
    ⟨_, rfl, by decide +kernel, rfl⟩
  obtain ⟨right, rightDecodes, rightText, rightStatus⟩ :
      ∃ right,
        Engine.decodeWith ⟨isa .rv64, {}⟩ doubtfulFenceBytes 0x1000 true =
            .ok right ∧
          right.instruction.text = "fence rw, rw" ∧
          right.status = .softFail :=
    ⟨_, rfl, by decide +kernel, rfl⟩
  have sameText := leftText.trans rightText.symm
  refine ⟨left, right, leftDecodes, rightDecodes, leftText, sameText, ?_,
    eq_of_text_eq leftDecodes rightDecodes sameText⟩
  rw [leftStatus, rightStatus]
  decide

end RiscV

end MachineCode
