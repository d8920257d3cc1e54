import MachineCode.Proofs.RiscV.Shape
import MachineCode.Proofs.RiscV.Widening
import MachineCode.Proofs.Table.Granting

/-!
# RV32 within RV64

Both widths share the table for words of four bytes. With wide registers more
of its paths come into question, but a word that decodes with narrow registers
ends with the same opcode and format (`isSteady_width`). The formats read the
same fields, except that a shift amount has one bit more. With narrow
registers this bit is zero, or else the word is no shift (`widens_of_mem`).

So what RV32 makes of a word of four bytes, RV64 makes of it too, with wider
registers (`decodeWith_widened`).
-/

namespace MachineCode.RiscV

/-! ## The table -/

/-- The requirement that the width of the registers decides. -/
def isWidth (predicate : Nat) : Bool :=
  predicate = Requirement.rv64.id

/--
Whether a path ends with a shift by a constant if its format reads a shift
amount, and only then. Unless such a path asks for wide registers, it has to
test that the sixth bit of the amount is zero.
-/
def pathWidens (path : Path) : Bool :=
  match path.ending with
  | .fail => true
  | .decode number format _ _ =>
    if Format.ofId? format = some .shift then
      isConstantShift number &&
        (path.asks isWidth ||
          (Path.knownBy path.guards).verdict 25 1 0 = some true)
    else
      !isConstantShift number

theorem isSteady_width : Wide.program.isSteady isWidth := by
  decide +kernel

theorem widens_of_mem : ∀ path ∈ Wide.program.paths, pathWidens path := by
  decide +kernel

/-! ## The requirements -/

section Grants

variable {features : Features} {predicate : Nat}

/-- Wide registers meet all requirements that narrow ones meet. -/
theorem grants_of_rv32
    (granted : (isa .rv32).grants predicate features) :
    (isa .rv64).grants predicate features := by
  simp only [isa] at granted ⊢
  split at granted
  · next requirement _ =>
    cases requirement
    case rv64 => cases granted
    all_goals exact granted
  · cases granted

theorem isWidth_of_ofId?
    (found : Requirement.ofId? predicate = some .rv64) :
    isWidth predicate := by
  have each :
      ∀ number < Requirement.count,
        Requirement.ofNat number = .rv64 → isWidth number := by
    decide
  rw [Requirement.ofId?, Option.ite_none_right_eq_some,
    Option.some.injEq] at found
  exact each predicate found.1 found.2

theorem grants_eq_of_isWidth
    (other : isWidth predicate = false) :
    (isa .rv64).grants predicate features =
      (isa .rv32).grants predicate features := by
  simp only [isa]
  split
  · next requirement found =>
    cases requirement
    case rv64 =>
      rw [isWidth_of_ofId? found] at other
      cases other
    all_goals rfl
  · rfl

/-- A path that a word takes with narrow registers asks for no wide ones. -/
theorem asks_eq_false_of_holds
    {path : Path}
    {value : Nat}
    (holds : path.holds ((isa .rv32).grants · features) value) :
    path.asks isWidth = false := by
  rw [Path.asks, List.any_eq_false]
  intro guard member
  have held := List.all_eq_true.mp holds guard member
  cases guard with
  | granted predicate =>
      intro width
      have same := of_decide_eq_true width
      rw [Guard.holds, same] at held
      cases held
  | field | otherField | refused => simp

end Grants

/-! ## Operands -/

section Reads

variable
  {word : Word}
  (four : word.size = 4)
  {opcode : Nat}
include four

/-- The amount of a shift has one bit more, which is zero. -/
theorem readShift_widened
    (shifts : isConstantShift opcode)
    (zero : bitField word.value 25 1 = 0) :
    ReadsChanged (widenedOperand opcode)
      (readShift .rv32 Xlen.rv32.shiftBits word)
      (readShift .rv64 Xlen.rv64.shiftBits word) := by
  refine .of_eq_ok (readShift_eq four (by decide) (by decide))
    (readShift_eq four (by decide) (by decide)) ?_
  have same : bitField word.value 20 6 = bitField word.value 20 5 :=
    bitField_succ_of_eq_zero zero
  simp [Reading.mapOperands, reading, Xlen.shiftBits, same,
    widenedOperand_unsigned shifts]

theorem readFloat_widened :
    ReadsChanged (widenedOperand opcode) (readFloat .rv32 word)
      (readFloat .rv64 word) := by
  have narrow := @readThree_eq .rv32 word four .floating
  have wide := @readThree_eq .rv64 word four .floating
  rw [Bank.file] at narrow wide
  refine .bind _ fun bits => ?_
  split
  · exact .error _
  · rw [narrow, wide]
    exact .ok (by simp [Reading.mapOperands])

/-- Other formats read the same, with wider registers. -/
theorem Format.read_widened
    {format : Format}
    (long : format.isLong)
    (noAmount : format ≠ .shift)
    (noShift : isConstantShift opcode = false) :
    ReadsChanged (widenedOperand opcode) (format.read .rv32 word)
      (format.read .rv64 word) := by
  have constant := widenedOperand_immediate noShift
  have changes {operands others : List Operand}
      (same : others = operands.map (widenedOperand opcode)) :
      reading others =
        (reading operands).mapOperands (widenedOperand opcode) :=
    congrArg reading same
  cases format with
  | upper =>
      exact .of_eq_ok (readUpper_eq four) (readUpper_eq four)
        (changes (by simp [Operand.unsigned, constant]))
  | jump =>
      exact .of_eq_ok (readJump_eq four) (readJump_eq four)
        (changes (by simp))
  | jumpRegister | constant =>
      exact .of_eq_ok (readConstant_eq four) (readConstant_eq four)
        (changes (by simp [Operand.signedField, Operand.signed, constant]))
  | branch =>
      exact .of_eq_ok (readBranch_eq four) (readBranch_eq four)
        (changes (by simp))
  | load =>
      exact .of_eq_ok (readLoad_eq four .integer) (readLoad_eq four .integer)
        (changes (by simp))
  | floatLoad =>
      exact .of_eq_ok (readLoad_eq four .floating)
        (readLoad_eq four .floating) (changes (by simp))
  | store =>
      exact .of_eq_ok (readStore_eq four .integer)
        (readStore_eq four .integer) (changes (by simp))
  | floatStore =>
      exact .of_eq_ok (readStore_eq four .floating)
        (readStore_eq four .floating) (changes (by simp))
  | shift => exact absurd rfl noAmount
  | shiftWord =>
      exact .of_eq_ok (readShift_eq four (by decide) (by decide))
        (readShift_eq four (by decide) (by decide))
        (changes (by simp [Operand.unsigned, constant]))
  | registers =>
      exact .of_eq_ok
        (congrArg (reading <$> ·) (readThree_eq four .integer))
        (congrArg (reading <$> ·) (readThree_eq four .integer))
        (changes (by simp))
  | fence =>
      exact .of_eq_ok (readFence_eq four) (readFence_eq four)
        (changes (by simp [Operand.unsigned, constant]))
  | bare => exact .ok rfl
  | control =>
      exact .of_eq_ok (readControl_eq four) (readControl_eq four)
        (changes (by simp))
  | controlConstant =>
      exact .of_eq_ok (readControlConstant_eq four)
        (readControlConstant_eq four)
        (changes (by simp [Operand.unsigned, constant]))
  | floatArithmetic => exact readFloat_widened four
  | floatToInteger =>
      exact .of_eq_ok (readMove_eq four .integer .floating)
        (readMove_eq four .integer .floating) (changes (by simp))
  | integerToFloat =>
      exact .of_eq_ok (readMove_eq four .floating .integer)
        (readMove_eq four .floating .integer) (changes (by simp))
  | _ => cases long

end Reads

/-! ## Decoding -/

section Decoding

variable {features : Features} {word : Word} {raw : RawInstruction}

/-- An end that reads the operands with wider registers gives the wider. -/
theorem finishDecode_widened
    {opcode format : Nat}
    (reads :
      ReadsChanged (widenedOperand opcode)
        ((isa .rv32).readOperands format word)
        ((isa .rv64).readOperands format word))
    {violated : Bool}
    (finished :
      (isa .rv32).finishDecode word opcode format violated = .ok raw) :
    (isa .rv64).finishDecode word opcode format violated =
      .ok (raw.mapOperands (widenedOperand raw.opcode)) := by
  rw [Isa.finishDecode] at finished
  rw [Isa.finishDecode, reads]
  cases read : (isa .rv32).readOperands format word with
  | error cause =>
      rw [read] at finished
      cases finished
  | ok reading =>
      rw [read] at finished
      cases finished
      rfl

/-- The end of a path that a word takes with narrow registers reads alike. -/
theorem readOperands_widened
    (four : word.size = 4)
    {path : Path}
    (member : path ∈ Wide.program.paths)
    (holds : path.holds ((isa .rv32).grants · features) word.value)
    {opcode number zeros ones : Nat}
    (ending : path.ending = .decode opcode number zeros ones) :
    ReadsChanged (widenedOperand opcode)
      ((isa .rv32).readOperands number word)
      ((isa .rv64).readOperands number word) := by
  have widens := widens_of_mem path member
  have shaped := Wide.isShaped_of_mem path member
  simp only [pathWidens, ending] at widens
  simp only [pathIsShaped, ending] at shaped
  split at shaped
  · next named format _ found =>
    simp only [Bool.and_eq_true] at shaped
    simp only [isa, found]
    rw [found] at widens
    split at widens
    · next isShift =>
      cases isShift
      rw [asks_eq_false_of_holds holds, Bool.false_or, Bool.and_eq_true,
        decide_eq_true_eq] at widens
      rcases widens with ⟨shifts, judged⟩
      have zero := (Path.agrees_knownBy holds).verdict judged
      exact readShift_widened four shifts (of_decide_eq_true zero)
    · next other =>
      rw [Bool.not_eq_true'] at widens
      refine Format.read_widened four shaped.1.1.1 ?_ widens
      rintro rfl
      exact other rfl
  · cases shaped

theorem outcome_widened
    (four : word.size = 4)
    {path : Path}
    (member : path ∈ Wide.program.paths)
    (holds : path.holds ((isa .rv32).grants · features) word.value)
    (decoded : path.ending.outcome (isa .rv32) word = .ok raw) :
    path.ending.outcome (isa .rv64) word =
      .ok (raw.mapOperands (widenedOperand raw.opcode)) := by
  cases ending : path.ending with
  | fail =>
      rw [ending] at decoded
      cases decoded
  | decode opcode number zeros ones =>
      rw [ending] at decoded
      exact finishDecode_widened
        (readOperands_widened four member holds ending) decoded

/-- A word of four bytes is decoded by the program for such words. -/
theorem decodeRaw_eq_eval
    {xlen : Xlen}
    (options : Options)
    (four : word.size = 4) :
    Engine.decodeRaw ⟨isa xlen, options⟩ word =
      Wide.program.eval (isa xlen) options.features word := by
  have found : (isa xlen).table? word.size = some Wide.table := by
    rw [four]
    rfl
  rw [← Wide.run_eq_eval xlen options.features four, Engine.decodeRaw, found]

/-- A word of four bytes that RV32 decodes is decoded by RV64. -/
theorem eval_widened
    (four : word.size = 4)
    (decoded : Wide.program.eval (isa .rv32) features word = .ok raw) :
    Wide.program.eval (isa .rv64) features word =
      .ok (raw.mapOperands (widenedOperand raw.opcode)) := by
  have recognised :
      Wide.program.eval (isa .rv32) features word ≠ word.unknown := by
    rw [decoded]
    intro unknown
    cases unknown
  rcases Program.exists_path_of_eval_ne_unknown recognised with
    ⟨path, found, decodes, outcome⟩
  rcases Path.exists_find?_of_wider (fun _ => grants_of_rv32)
      (fun _ => grants_eq_of_isWidth) isSteady_width found decodes with
    ⟨other, foundOther, sameEnding⟩
  rw [Program.eval_of_find? foundOther, sameEnding]
  rw [decoded] at outcome
  exact outcome_widened four (List.mem_of_find?_eq_some found)
    (List.find?_some found) outcome.symm

end Decoding

/--
What RV32 decodes from a word of four bytes, RV64 decodes from it too, and it
is the same instruction with wider registers and shift amounts.
-/
theorem decodeWith_widened
    {options : Options}
    {input : List UInt8}
    {address : Address}
    {wantDetail : Bool}
    {narrow : Decoded}
    (success :
      Engine.decodeWith ⟨isa .rv32, options⟩ input address wantDetail =
        .ok narrow)
    (four : narrow.instruction.size = 4) :
    Engine.decodeWith ⟨isa .rv64, options⟩ input address wantDetail =
      .ok
        { narrow with
          instruction := widenedInstruction narrow.instruction } := by
  have sameRead :
      Engine.readWord ⟨isa .rv64, options⟩ input address =
        Engine.readWord ⟨isa .rv32, options⟩ input address := rfl
  rw [Engine.decodeWith] at success
  rw [Engine.decodeWith, sameRead]
  cases read : Engine.readWord ⟨isa .rv32, options⟩ input address with
  | error error =>
      rw [read] at success
      cases success
  | ok word =>
      rw [read] at success
      dsimp only at success ⊢
      rw [Engine.decodeWord] at success
      rw [Engine.decodeWord]
      cases decoded : Engine.decodeRaw ⟨isa .rv32, options⟩ word with
      | error error =>
          rw [decoded] at success
          cases success
      | ok raw =>
          rw [decoded] at success
          rw [Engine.finishRaw_size success] at four
          rw [decodeRaw_eq_eval options four] at decoded
          rw [decodeRaw_eq_eval options four, eval_widened four decoded]
          exact finishRaw_widened success

/-- The bytes of `slli a0, a1, 5`. -/
def shiftInput : List UInt8 :=
  [0x13, 0x95, 0x55, 0x00]

set_option maxRecDepth 20000 in
/-- The amount of a shift gets a wider field, and the registers get wider. -/
theorem decodeWith_widened_slli :
    ∃ narrow : Decoded,
      Engine.decodeWith ⟨isa .rv32, {}⟩ shiftInput 0x1000 true = .ok narrow ∧
        narrow.instruction.size = 4 ∧
        narrow.instruction.operands =
          [.register ⟨.riscV32, .general, 10, 32⟩,
            .register ⟨.riscV32, .general, 11, 32⟩, .unsigned 5 5] ∧
        Engine.decodeWith ⟨isa .rv64, {}⟩ shiftInput 0x1000 true =
          .ok
            { narrow with
              instruction := widenedInstruction narrow.instruction } ∧
        (widenedInstruction narrow.instruction).operands =
          [.register ⟨.riscV64, .general, 10, 64⟩,
            .register ⟨.riscV64, .general, 11, 64⟩, .unsigned 5 6] := by
  obtain ⟨narrow, success, four, operands, wider⟩ :
      ∃ narrow : Decoded,
        Engine.decodeWith ⟨isa .rv32, {}⟩ shiftInput 0x1000 true =
            .ok narrow ∧
          narrow.instruction.size = 4 ∧
          narrow.instruction.operands =
            [.register ⟨.riscV32, .general, 10, 32⟩,
              .register ⟨.riscV32, .general, 11, 32⟩, .unsigned 5 5] ∧
          (widenedInstruction narrow.instruction).operands =
            [.register ⟨.riscV64, .general, 10, 64⟩,
              .register ⟨.riscV64, .general, 11, 64⟩, .unsigned 5 6] :=
    ⟨_, rfl, rfl, rfl, rfl⟩
  exact ⟨narrow, success, four, operands, decodeWith_widened success four,
    wider⟩

end MachineCode.RiscV
