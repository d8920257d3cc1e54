import MachineCode.Proofs.Refusal
import MachineCode.Proofs.RiscV.Shape

/-!
# Causes for which RISC-V operands are refused

The formats of a table read fields that the words of the table have, and every
number that a field has room for names a register. What is left to refuse are
the reserved values of fields (`refuses_readLong`, `refuses_readShort`).
-/

namespace MachineCode.RiscV

variable {xlen : Xlen} {word : Word}

/-- Whether a read fails only for the causes that RISC-V words give. -/
abbrev Refuses {α : Type} (xlen : Xlen) (read : Read α) : Prop :=
  FailsOnly xlen.architecture.mayRefuse read

/-! ## Words of four bytes -/

section Long

variable (four : word.size = 4)
include four

theorem refuses_readFloat : Refuses xlen (readFloat xlen word) := by
  refine .bind (.field four (by decide) (by decide)) fun bits => ?_
  split
  · exact .error rfl
  · exact .bind (.of_eq_ok (readThree_eq four .floating)) fun _ => .ok _

/-- A long word is refused only for a reserved rounding mode. -/
theorem refuses_readLong
    {format : Format}
    (long : format.isLong) :
    Refuses xlen (format.read xlen word) := by
  cases format with
  | upper => exact .of_eq_ok (readUpper_eq four)
  | jump => exact .of_eq_ok (readJump_eq four)
  | jumpRegister | constant => exact .of_eq_ok (readConstant_eq four)
  | branch => exact .of_eq_ok (readBranch_eq four)
  | load => exact .of_eq_ok (readLoad_eq four .integer)
  | store => exact .of_eq_ok (readStore_eq four .integer)
  | shift =>
      cases xlen with
      | rv32 | rv64 =>
          exact .of_eq_ok (readShift_eq four (by decide) (by decide))
  | shiftWord =>
      exact .of_eq_ok (readShift_eq four (by decide) (by decide))
  | registers => exact .map (.of_eq_ok (readThree_eq four .integer)) _
  | fence => exact .of_eq_ok (readFence_eq four)
  | bare => exact .ok _
  | control => exact .of_eq_ok (readControl_eq four)
  | controlConstant => exact .of_eq_ok (readControlConstant_eq four)
  | floatLoad => exact .of_eq_ok (readLoad_eq four .floating)
  | floatStore => exact .of_eq_ok (readStore_eq four .floating)
  | floatArithmetic => exact refuses_readFloat four
  | floatToInteger => exact .of_eq_ok (readMove_eq four .integer .floating)
  | integerToFloat => exact .of_eq_ok (readMove_eq four .floating .integer)
  | _ => cases long

end Long

/-! ## Words of two bytes -/

/-- Whether the fields of a compressed word number registers. -/
structure Short.Small (short : Short) : Prop where
  destination_lt : short.destination < 32
  source_lt : short.source < 32
  shortDestination_lt : short.shortDestination < 8
  shortSource_lt : short.shortSource < 8

section Registers

theorem refuses_operand
    (bank : Bank)
    {number : Nat}
    (small : number < 32) :
    Refuses xlen (registerOperand (bank.file xlen) number) :=
  .map (.of_eq_ok (bank.find_file xlen small)) _

theorem find_shortFile
    (bank : Bank)
    {number : Nat}
    (small : number < 8) :
    ∃ register, (bank.shortFile xlen).find number = .ok register := by
  have whole : bitField number 0 3 = number := by
    rw [bitField, Nat.pow_zero, Nat.div_one, Nat.mod_eq_of_lt small]
  exact ⟨_, whole ▸ bank.find_shortFile xlen number 0⟩

theorem refuses_shortOperand
    (bank : Bank)
    {number : Nat}
    (small : number < 8) :
    Refuses xlen (registerOperand (bank.shortFile xlen) number) := by
  rcases find_shortFile bank small with ⟨register, found⟩
  exact .map (.of_eq_ok found) _

theorem refuses_stackMemory (pieces : List BitPiece) (size : Nat) :
    Refuses xlen
      (memoryOperand (integers xlen) stackPointer pieces size word) :=
  .bind (.of_eq_ok (Bank.find_stackPointer xlen)) fun _ => .ok _

theorem refuses_shortMemory
    {number : Nat}
    (small : number < 8)
    (pieces : List BitPiece)
    (size : Nat) :
    Refuses xlen
      (memoryOperand (shortIntegers xlen) number pieces size word) := by
  rcases find_shortFile .integer small with ⟨register, found⟩
  exact .bind (.of_eq_ok found) fun _ => .ok _

theorem refuses_shiftAmount : Refuses xlen (shiftAmount xlen word) :=
  .ite (.error rfl) (.ok _)

end Registers

section Short

variable
  {pieces : List BitPiece}
  {size : Nat}
  (two : word.size = 2)
include two

/-- A compressed word has the fields that name registers. -/
theorem refuses_bindShort
    {α : Type}
    {rest : Short → Read α}
    (restFails : ∀ short : Short, short.Small → Refuses xlen (rest short)) :
    Refuses xlen (Short.read word >>= rest) := by
  rw [Short.read_eq two]
  exact restFails _
    { destination_lt := bitField_lt ..
      source_lt := bitField_lt ..
      shortDestination_lt := bitField_lt ..
      shortSource_lt := bitField_lt .. }

theorem refuses_readShortAccess (bank : Bank) :
    Refuses xlen
      (readShortAccess xlen (bank.shortFile xlen) pieces size word) :=
  refuses_bindShort two fun _ small =>
    .bind (refuses_shortOperand bank small.shortSource_lt) fun _ =>
      .bind (refuses_shortMemory small.shortDestination_lt ..) fun _ => .ok _

theorem refuses_readStackLoad (bank : Bank) (zeroReserved : Bool) :
    Refuses xlen
      (readStackLoad xlen (bank.file xlen) zeroReserved pieces size word) :=
  refuses_bindShort two fun _ small =>
    .ite (.throw rfl)
      (.bind (refuses_operand bank small.destination_lt) fun _ =>
        .bind (refuses_stackMemory ..) fun _ => .ok _)

theorem refuses_readStackStore (bank : Bank) :
    Refuses xlen
      (readStackStore xlen (bank.file xlen) pieces size word) :=
  refuses_bindShort two fun _ small =>
    .bind (refuses_operand bank small.source_lt) fun _ =>
      .bind (refuses_stackMemory ..) fun _ => .ok _

theorem refuses_readStackAddress :
    Refuses xlen (readStackAddress xlen word) :=
  refuses_bindShort two fun _ small =>
    .bind (refuses_shortOperand .integer small.shortSource_lt) fun _ =>
      .bind (.map (.of_eq_ok (Bank.find_stackPointer xlen)) _) fun _ =>
        .ok _

theorem refuses_readStackChange : Refuses xlen (readStackChange xlen word) :=
  refuses_bindShort two fun _ small =>
    .ite (.throw rfl)
      (.bind (refuses_operand .integer small.destination_lt) fun _ => .ok _)

theorem refuses_readShortAdd : Refuses xlen (readShortAdd xlen word) :=
  refuses_bindShort two fun _ small =>
    .bind (refuses_operand .integer small.destination_lt) fun _ => .ok _

theorem refuses_readShortAddWord :
    Refuses xlen (readShortAddWord xlen word) :=
  refuses_bindShort two fun _ small =>
    .ite (.throw rfl)
      (.bind (refuses_operand .integer small.destination_lt) fun _ => .ok _)

theorem refuses_readShortLoadConstant :
    Refuses xlen (readShortLoadConstant xlen word) :=
  refuses_bindShort two fun _ small =>
    .bind (refuses_operand .integer small.destination_lt) fun _ => .ok _

theorem refuses_readShortUpper : Refuses xlen (readShortUpper xlen word) :=
  refuses_bindShort two fun _ small =>
    .ite (.throw rfl)
      (.bind (refuses_operand .integer small.destination_lt) fun _ => .ok _)

theorem refuses_readShortShift : Refuses xlen (readShortShift xlen word) :=
  refuses_bindShort two fun _ small =>
    .bind refuses_shiftAmount fun _ =>
      .bind (refuses_shortOperand .integer small.shortDestination_lt) fun _ =>
        .ok _

theorem refuses_readShortShiftLeft :
    Refuses xlen (readShortShiftLeft xlen word) :=
  refuses_bindShort two fun _ small =>
    .bind refuses_shiftAmount fun _ =>
      .bind (refuses_operand .integer small.destination_lt) fun _ => .ok _

theorem refuses_readShortAnd : Refuses xlen (readShortAnd xlen word) :=
  refuses_bindShort two fun _ small =>
    .bind (refuses_shortOperand .integer small.shortDestination_lt) fun _ =>
      .ok _

theorem refuses_readShortArithmetic :
    Refuses xlen (readShortArithmetic xlen word) :=
  refuses_bindShort two fun _ small =>
    .bind (refuses_shortOperand .integer small.shortDestination_lt) fun _ =>
      .bind (refuses_shortOperand .integer small.shortSource_lt) fun _ => .ok _

theorem refuses_readShortJump : Refuses xlen (readShortJump word) :=
  refuses_bindShort two fun _ _ => .ok _

theorem refuses_readShortBranch :
    Refuses xlen (readShortBranch xlen word) :=
  refuses_bindShort two fun _ small =>
    .bind (refuses_shortOperand .integer small.shortDestination_lt) fun _ =>
      .ok _

theorem refuses_readShortJumpRegister :
    Refuses xlen (readShortJumpRegister xlen word) :=
  refuses_bindShort two fun _ small =>
    .ite (.throw rfl)
      (.bind (refuses_operand .integer small.destination_lt) fun _ => .ok _)

theorem refuses_readShortMove : Refuses xlen (readShortMove xlen word) :=
  refuses_bindShort two fun _ small =>
    .bind (refuses_operand .integer small.destination_lt) fun _ =>
      .bind (refuses_operand .integer small.source_lt) fun _ => .ok _

/-- A short word is refused only for the reserved value of a field. -/
theorem refuses_readShort
    {format : Format}
    (isShort : format.isShort) :
    Refuses xlen (format.read xlen word) := by
  cases format with
  | stackAddress => exact refuses_readStackAddress two
  | shortLoadWord | shortStoreWord | shortLoadDouble | shortStoreDouble =>
      exact refuses_readShortAccess two .integer
  | shortFloatLoadWord | shortFloatStoreWord | shortFloatLoadDouble
  | shortFloatStoreDouble =>
      exact refuses_readShortAccess two .floating
  | shortAdd => exact refuses_readShortAdd two
  | shortAddWord => exact refuses_readShortAddWord two
  | shortJump => exact refuses_readShortJump two
  | shortLoadConstant => exact refuses_readShortLoadConstant two
  | stackChange => exact refuses_readStackChange two
  | shortUpper => exact refuses_readShortUpper two
  | shortShift => exact refuses_readShortShift two
  | shortAnd => exact refuses_readShortAnd two
  | shortArithmetic => exact refuses_readShortArithmetic two
  | shortBranch => exact refuses_readShortBranch two
  | shortShiftLeft => exact refuses_readShortShiftLeft two
  | stackLoadWord | stackLoadDouble =>
      exact refuses_readStackLoad two .integer true
  | stackFloatLoadWord | stackFloatLoadDouble =>
      exact refuses_readStackLoad two .floating false
  | shortJumpRegister => exact refuses_readShortJumpRegister two
  | shortMove | shortAddRegister => exact refuses_readShortMove two
  | stackStoreWord | stackStoreDouble =>
      exact refuses_readStackStore two .integer
  | stackFloatStoreWord | stackFloatStoreDouble =>
      exact refuses_readStackStore two .floating
  | bare => exact .ok _
  | _ => cases isShort

end Short

end MachineCode.RiscV
