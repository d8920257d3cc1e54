import MachineCode.Proofs.Arm64.BitfieldValue
import MachineCode.Proofs.PreferredTouch

/-!
# Preferred forms of bitfield moves mean the same

What the bitfield moves and their preferred forms leave in the destination,
for all contents of the registers (`outcome?`). Each rule takes a form to one
with the same outcome (`preserves_of_mem`), and for all constants that a word
can hold there is a rule that applies (`exists_applies`). So no bitfield move
is left as it is, and none changes its meaning (`bitfieldForm_means_same`).
-/

namespace MachineCode.Arm64

/-! ## Outcomes -/

/-- What the general registers hold, by number. -/
abbrev Contents :=
  Nat → BitVec 64

/-- The low bits of a register; the zero register holds zero. -/
def Contents.read (contents : Contents) (width number : Nat) :
    BitVec width :=
  if number = zeroRegister then 0 else (contents number).setWidth width

/--
The value that an opcode makes of a source, of what the destination held
before, and of constants.
-/
def Opcode.value?
    {width sourceWidth : Nat}
    (opcode : Opcode)
    (source : BitVec sourceWidth)
    (old : BitVec width)
    (constants : List Nat) :
    Option (BitVec width) :=
  let whole : BitVec width := source.setWidth width
  match opcode, constants with
  | .sbfm, [immr, imms] => some (bitfieldMove .sign whole old immr imms)
  | .ubfm, [immr, imms] => some (bitfieldMove .zeros whole old immr imms)
  | .bfm, [immr, imms] => some (bitfieldMove .kept whole old immr imms)
  | .sxtb, [] => some ((source.setWidth 8).signExtend width)
  | .sxth, [] => some ((source.setWidth 16).signExtend width)
  | .sxtw, [] => some ((source.setWidth 32).signExtend width)
  | .uxtb, [] => some ((source.setWidth 8).setWidth width)
  | .uxth, [] => some ((source.setWidth 16).setWidth width)
  | .lslImmediate, [amount] => some (whole <<< amount)
  | .lsrImmediate, [amount] => some (whole >>> amount)
  | .asrImmediate, [amount] => some (whole.sshiftRight amount)
  | .sbfiz, [place, length] =>
    some ((whole.setWidth length).signExtend width <<< place)
  | .ubfiz, [place, length] =>
    some ((whole.setWidth length).setWidth width <<< place)
  | .bfi, [place, length] =>
    some (insertField old (whole.setWidth length) place)
  | .sbfx, [start, length] =>
    some ((whole.extractLsb' start length).signExtend width)
  | .ubfx, [start, length] =>
    some ((whole.extractLsb' start length).setWidth width)
  | .bfxil, [start, length] =>
    some (insertField old (whole.extractLsb' start length) 0)
  | _, _ => none

/-- The value of a constant that is not negative. -/
def constant? (operand : Operand) : Option Nat :=
  operand.immediateValue?.bind Int.toNat?

namespace Surroundings

/-- The bitfield move that leaves these surroundings. -/
def base : Surroundings → Opcode
  | zeros => .ubfm
  | sign => .sbfm
  | kept => .bfm

/-- The preferred form that moves the low bits to a higher place. -/
def insertion : Surroundings → Opcode
  | zeros => .ubfiz
  | sign => .sbfiz
  | kept => .bfi

/-- The preferred form that moves a field to the lowest place. -/
def extraction : Surroundings → Opcode
  | zeros => .ubfx
  | sign => .sbfx
  | kept => .bfxil

variable
  (around : Surroundings)
  {width length : Nat}
  (source old : BitVec width)

theorem value?_base (immr imms : Nat) :
    around.base.value? source old [immr, imms] =
      some (bitfieldMove around source old immr imms) := by
  have whole : source.setWidth width = source := BitVec.setWidth_eq source
  cases around <;>
    exact congrArg (fun moved => some (bitfieldMove _ moved old immr imms))
      whole

theorem value?_insertion
    (nonempty : 0 < length)
    (place : Nat) :
    around.insertion.value? source old [place, length] =
      some (moveField around source old 0 length place) := by
  let whole : BitVec width := source.setWidth width
  have isWhole : whole = source := BitVec.setWidth_eq source
  cases around with
  | zeros =>
      change some ((whole.setWidth length).setWidth width <<< place) = _
      rw [isWhole, moveField_zeros, extractLsb'_zero]
  | sign =>
      change some ((whole.setWidth length).signExtend width <<< place) = _
      rw [isWhole, moveField_sign nonempty, extractLsb'_zero]
  | kept =>
      change some (insertField old (whole.setWidth length) place) = _
      rw [isWhole, moveField_kept, extractLsb'_zero]

theorem value?_extraction
    (nonempty : 0 < length)
    (start : Nat) :
    around.extraction.value? source old [start, length] =
      some (moveField around source old start length 0) := by
  let whole : BitVec width := source.setWidth width
  have isWhole : whole = source := BitVec.setWidth_eq source
  cases around with
  | zeros =>
      change some ((whole.extractLsb' start length).setWidth width) = _
      rw [isWhole, moveField_zeros, BitVec.shiftLeft_zero]
  | sign =>
      change some ((whole.extractLsb' start length).signExtend width) = _
      rw [isWhole, moveField_sign nonempty, BitVec.shiftLeft_zero]
  | kept =>
      change some (insertField old (whole.extractLsb' start length) 0) = _
      rw [isWhole, moveField_kept]

end Surroundings

/--
The register that a form writes and what it holds then; above the width of the
register there are zeros.
-/
def outcome? (contents : Contents) (form : Form) :
    Option (Register × BitVec 64) :=
  match form.operands with
  | .register destination :: .register source :: constants => do
    let opcode ← Opcode.ofId? form.opcode
    let constants ← constants.mapM constant?
    let value ←
      opcode.value? (contents.read source.size source.id)
        (contents.read destination.size destination.id) constants
    return (destination, value.setWidth 64)
  | _ => none

/--
Whether the constants of a preferred form are in range: a shift amount, or a
place and the length of a field.
-/
def ConstantsFit (width : Nat) : List Nat → Prop
  | [] => True
  | [amount] => amount < width
  | [place, length] =>
    place < width ∧ 1 ≤ length ∧ place + length ≤ width
  | _ => False

theorem constant?_smallConstant (value : Nat) :
    constant? (smallConstant value) = some value := by
  simp [constant?, smallConstant, Operand.unsigned, Operand.immediateValue?,
    Int.toNat?]

theorem mapM_constant? (constants : List Nat) :
    (constants.map smallConstant).mapM constant? = some constants := by
  induction constants with
  | nil => rfl
  | cons constant constants induction =>
      rw [List.map_cons, List.mapM_cons, constant?_smallConstant, induction]
      rfl

/-- The outcome of a form is the value of its opcode. -/
theorem outcome?_eq
    (contents : Contents)
    {opcode : Opcode}
    {wide : Bool}
    {destination : Nat}
    {source : Register}
    {constants : List Nat}
    {value : BitVec (generalBits wide)}
    (valued :
      opcode.value? (contents.read source.size source.id)
          (contents.read (generalBits wide) destination) constants =
        some value) :
    outcome? contents
        ⟨opcode.id,
          .register (generalRegister false wide destination) ::
            .register source :: constants.map smallConstant⟩ =
      some
        (generalRegister false wide destination, value.setWidth 64) := by
  have isData :
      generalRegister false wide destination =
        ⟨.arm64, .general, destination, generalBits wide⟩ :=
    rfl
  rw [isData]
  simp only [outcome?, Opcode.ofId?_id, mapM_constant?, valued,
    Option.bind_eq_bind, Option.bind_some, Option.pure_def]

/-- The low bits of the low bits are the low bits. -/
theorem Contents.setWidth_read
    (contents : Contents)
    {width narrow : Nat}
    (fits : narrow ≤ width)
    (number : Nat) :
    (contents.read width number).setWidth narrow =
      contents.read narrow number := by
  unfold read
  split
  · simp
  · exact BitVec.setWidth_setWidth_of_le _ fits

/-! ## Rules -/

/-- The operands of a bitfield move. -/
def bitfieldOperands
    (wide : Bool)
    (destination source immr imms : Nat) :
    List Operand :=
  [.register (generalRegister false wide destination),
    .register (generalRegister false wide source),
    smallConstant immr, smallConstant imms]

/-- A bitfield move leaves the moved field in the destination. -/
theorem outcome?_base
    (contents : Contents)
    (around : Surroundings)
    {wide : Bool}
    (destination source immr imms : Nat) :
    outcome? contents
        ⟨around.base.id,
          bitfieldOperands wide destination source immr imms⟩ =
      some
        (generalRegister false wide destination,
          (bitfieldMove around (contents.read (generalBits wide) source)
            (contents.read (generalBits wide) destination) immr
            imms).setWidth 64) :=
  @outcome?_eq contents around.base wide destination
    ⟨.arm64, .general, source, generalBits wide⟩ [immr, imms] _
    (around.value?_base ..)

/--
Whether a rule takes a bitfield move to a form of the same worth, with
constants in range.
-/
def Preserves (around : Surroundings) (rule : Alias) : Prop :=
  ∃ short : Opcode,
    rule.preferred = short.id ∧ short ≠ around.base ∧
      ∀ {wide : Bool} {destination source immr imms : Nat}
        {reduced : List Operand},
        immr < generalBits wide → imms < generalBits wide →
          rule.reduce
              (bitfieldOperands wide destination source immr imms) =
            some reduced →
          ∃ (shown : Register) (constants : List Nat),
            reduced =
                .register (generalRegister false wide destination) ::
                  .register shown :: constants.map smallConstant ∧
              ConstantsFit (generalBits wide) constants ∧
              ∀ contents : Contents,
                let old := contents.read (generalBits wide) destination
                short.value? (contents.read shown.size shown.id) old
                    constants =
                  some
                    (bitfieldMove around
                      (contents.read (generalBits wide) source) old immr
                      imms)

theorem preserves_extension
    {around : Surroundings}
    {short : Opcode}
    {condition : Register → Bool}
    {highest : Nat}
    (isPreferred : short ≠ around.base)
    (narrow : highest < 32)
    (valued :
      ∀ {width : Nat} {low : BitVec 32} {source : BitVec width}
        (old : BitVec width),
        low.setWidth (highest + 1) = source.setWidth (highest + 1) →
          short.value? low old [] =
            some (bitfieldMove around source old 0 highest)) :
    Preserves around
      (preferred around.base short
        (Bitfield.extension condition highest)) := by
  refine ⟨short, rfl, isPreferred, ?_⟩
  intro wide destination source immr imms reduced immrSmall immsSmall reduces
  dsimp only [preferred] at reduces
  rcases Bitfield.exists_of_extension reduces with
    ⟨field, found, noRotation, isHighest, rfl⟩
  rw [bitfieldOperands, ofOperands?_bitfield immrSmall immsSmall] at found
  cases found
  obtain rfl : immr = 0 := noRotation
  obtain rfl : imms = highest := isHighest
  refine ⟨_, [], rfl, trivial, fun contents => valued _ ?_⟩
  have isData :
      generalRegister false wide source =
        ⟨.arm64, .general, source, generalBits wide⟩ :=
    rfl
  rw [isData, contents.setWidth_read (by omega),
    contents.setWidth_read (by omega)]

theorem preserves_withConstants
    {around : Surroundings}
    {short : Opcode}
    {condition : Bitfield → Bool}
    {constants : Bitfield → List Nat}
    (isPreferred : short ≠ around.base)
    (valued :
      ∀ {width : Nat} {field : Bitfield},
        field.source.size = width →
          field.immr < width → field.imms < width → condition field →
          ConstantsFit width (constants field) ∧
            ∀ source old : BitVec width,
              short.value? source old (constants field) =
                some (bitfieldMove around source old field.immr field.imms)) :
    Preserves around
      (preferred around.base short
        (Bitfield.withConstants condition constants)) := by
  refine ⟨short, rfl, isPreferred, ?_⟩
  intro wide destination source immr imms reduced immrSmall immsSmall reduces
  dsimp only [preferred] at reduces
  rcases Bitfield.exists_of_withConstants reduces with
    ⟨field, found, passed, rfl⟩
  rw [bitfieldOperands, ofOperands?_bitfield immrSmall immsSmall] at found
  cases found
  rcases valued (generalRegister_size ..) immrSmall immsSmall passed with
    ⟨fit, valued⟩
  exact ⟨_, _, rfl, fit, fun contents => valued _ _⟩

/-! ### The rules for bitfield moves -/

/-- The extension of the low bits by their sign. -/
theorem preserves_signExtension
    {short : Opcode}
    {condition : Register → Bool}
    {highest : Nat}
    (isPreferred : short ≠ .sbfm)
    (narrow : highest < 32)
    (widens :
      ∀ {width : Nat} (low : BitVec 32) (old : BitVec width),
        short.value? low old [] =
          some ((low.setWidth (highest + 1)).signExtend width)) :
    Preserves .sign
      (preferred .sbfm short (Bitfield.extension condition highest)) := by
  refine @preserves_extension .sign _ _ _ isPreferred narrow ?_
  intro width low source old same
  rw [widens, bitfieldMove_signExtension, same]

/-- The extension of the low bits by zeros. -/
theorem preserves_zeroExtension
    {short : Opcode}
    {condition : Register → Bool}
    {highest : Nat}
    (isPreferred : short ≠ .ubfm)
    (narrow : highest < 32)
    (widens :
      ∀ {width : Nat} (low : BitVec 32) (old : BitVec width),
        short.value? low old [] =
          some ((low.setWidth (highest + 1)).setWidth width)) :
    Preserves .zeros
      (preferred .ubfm short (Bitfield.extension condition highest)) := by
  refine @preserves_extension .zeros _ _ _ isPreferred narrow ?_
  intro width low source old same
  rw [widens, bitfieldMove_zeroExtension, same]

theorem preserves_shiftLeft :
    Preserves .zeros
      (preferred .ubfm .lslImmediate Bitfield.shiftLeft) := by
  refine @preserves_withConstants .zeros _ _ _ (by decide) ?_
  intro width field isWidth immrSmall immsSmall passed
  rw [Bool.and_eq_true, decide_eq_true_eq, decide_eq_true_eq] at passed
  rw [isWidth] at passed ⊢
  refine ⟨show width - 1 - field.imms < width by omega, fun source old => ?_⟩
  change some (source.setWidth width <<< (width - 1 - field.imms)) = _
  rw [bitfieldMove_shiftLeft immrSmall passed.2, BitVec.setWidth_eq]

theorem preserves_shiftRight :
    Preserves .zeros
      (preferred .ubfm .lsrImmediate Bitfield.shiftRight) := by
  refine @preserves_withConstants .zeros _ _ _ (by decide) ?_
  intro width field isWidth immrSmall immsSmall passed
  rw [decide_eq_true_eq, isWidth] at passed
  refine ⟨immrSmall, fun source old => ?_⟩
  change some (source.setWidth width >>> field.immr) = _
  rw [passed, bitfieldMove_shiftRight immrSmall, BitVec.setWidth_eq]

theorem preserves_shiftRightArithmetic :
    Preserves .sign
      (preferred .sbfm .asrImmediate Bitfield.shiftRight) := by
  refine @preserves_withConstants .sign _ _ _ (by decide) ?_
  intro width field isWidth immrSmall immsSmall passed
  rw [decide_eq_true_eq, isWidth] at passed
  refine ⟨immrSmall, fun source old => ?_⟩
  change some ((source.setWidth width).sshiftRight field.immr) = _
  rw [passed, bitfieldMove_shiftRightArithmetic immrSmall,
    BitVec.setWidth_eq]

/-- The low bits that move to a higher place. -/
theorem preserves_insertion (around : Surroundings) :
    Preserves around
      (preferred around.base around.insertion Bitfield.insertion) := by
  refine preserves_withConstants (by cases around <;> decide) ?_
  intro width field isWidth immrSmall immsSmall passed
  rw [decide_eq_true_eq] at passed
  rw [isWidth]
  have fits : width - field.immr + (field.imms + 1) ≤ width := by omega
  refine ⟨⟨by omega, Nat.le_add_left .., fits⟩, fun source old => ?_⟩
  rw [around.value?_insertion _ _ (Nat.succ_pos _),
    bitfieldMove_of_lt _ passed]

/-- A field that moves to the lowest place. -/
theorem preserves_extraction (around : Surroundings) :
    Preserves around
      (preferred around.base around.extraction Bitfield.extraction) := by
  refine preserves_withConstants (by cases around <;> decide) ?_
  intro width field isWidth immrSmall immsSmall passed
  rw [decide_eq_true_eq] at passed
  have fits : field.immr + (field.imms - field.immr + 1) ≤ width := by omega
  refine ⟨⟨immrSmall, Nat.le_add_left .., fits⟩, fun source old => ?_⟩
  rw [around.value?_extraction _ _ (Nat.succ_pos _),
    bitfieldMove_of_le _ passed]

/-- Each rule for a bitfield move takes it to a form of the same worth. -/
theorem preserves_of_mem
    {around : Surroundings}
    {rule : Alias}
    (member : rule ∈ preferredForms)
    (same : rule.opcode = around.base.id) :
    Preserves around rule := by
  have own :
      rule ∈ preferredForms.filter fun rule =>
        rule.opcode = around.base.id :=
    List.mem_filter.mpr ⟨member, decide_eq_true same⟩
  cases around with
  | zeros =>
      have each :
          ∀ rule ∈
              [preferred .ubfm .uxtb (Bitfield.extension (·.size = 32) 7),
                preferred .ubfm .uxth (Bitfield.extension (·.size = 32) 15),
                preferred .ubfm .lslImmediate Bitfield.shiftLeft,
                preferred .ubfm .lsrImmediate Bitfield.shiftRight,
                preferred .ubfm .ubfiz Bitfield.insertion,
                preferred .ubfm .ubfx Bitfield.extraction],
            Preserves .zeros rule := by
        simp only [List.forall_mem_cons]
        exact
          ⟨preserves_zeroExtension (by decide) (by decide) fun _ _ => rfl,
            preserves_zeroExtension (by decide) (by decide) fun _ _ => rfl,
            preserves_shiftLeft, preserves_shiftRight,
            preserves_insertion .zeros, preserves_extraction .zeros,
            by simp⟩
      exact each rule own
  | sign =>
      have each :
          ∀ rule ∈
              [preferred .sbfm .sxtb (Bitfield.extension (fun _ => true) 7),
                preferred .sbfm .sxth (Bitfield.extension (fun _ => true) 15),
                preferred .sbfm .sxtw (Bitfield.extension (·.size = 64) 31),
                preferred .sbfm .asrImmediate Bitfield.shiftRight,
                preferred .sbfm .sbfiz Bitfield.insertion,
                preferred .sbfm .sbfx Bitfield.extraction],
            Preserves .sign rule := by
        simp only [List.forall_mem_cons]
        exact
          ⟨preserves_signExtension (by decide) (by decide) fun _ _ => rfl,
            preserves_signExtension (by decide) (by decide) fun _ _ => rfl,
            preserves_signExtension (by decide) (by decide) fun _ _ => rfl,
            preserves_shiftRightArithmetic, preserves_insertion .sign,
            preserves_extraction .sign, by simp⟩
      exact each rule own
  | kept =>
      have each :
          ∀ rule ∈
              [preferred .bfm .bfi Bitfield.insertion,
                preferred .bfm .bfxil Bitfield.extraction],
            Preserves .kept rule := by
        simp only [List.forall_mem_cons]
        exact ⟨preserves_insertion .kept, preserves_extraction .kept, by simp⟩
      exact each rule own

/-! ## All bitfield moves -/

theorem isSome_form?_withConstants
    {long : Opcode}
    (short : Opcode)
    {wide : Bool}
    {destination source immr imms : Nat}
    (immrSmall : immr < generalBits wide)
    (immsSmall : imms < generalBits wide)
    {condition : Bitfield → Bool}
    (constants : Bitfield → List Nat)
    (passed :
      condition
        ⟨.register (generalRegister false wide destination),
          generalRegister false wide source, immr, imms⟩) :
    ((preferred long short
          (Bitfield.withConstants condition constants)).form?
        ⟨long.id,
          bitfieldOperands wide destination source immr imms⟩).isSome := by
  rw [Alias.form?, preferred, if_pos rfl, Option.isSome_map]
  dsimp only
  rw [Bitfield.withConstants, bitfieldOperands,
    ofOperands?_bitfield immrSmall immsSmall]
  dsimp only
  rw [if_pos passed]
  rfl

/-- A bitfield move is an insertion or an extraction. -/
theorem exists_applies
    (around : Surroundings)
    {wide : Bool}
    {immr imms : Nat}
    (immrSmall : immr < generalBits wide)
    (immsSmall : imms < generalBits wide)
    (destination source : Nat) :
    ∃ rule ∈ preferredForms,
      (rule.form?
        ⟨around.base.id,
          bitfieldOperands wide destination source immr imms⟩).isSome := by
  rcases Nat.lt_or_ge imms immr with inserts | extracts
  · refine ⟨preferred around.base around.insertion Bitfield.insertion, ?_,
      isSome_form?_withConstants _ immrSmall immsSmall _
        (decide_eq_true inserts)⟩
    cases around <;>
      simp [preferredForms, Surroundings.base, Surroundings.insertion]
  · refine ⟨preferred around.base around.extraction Bitfield.extraction, ?_,
      isSome_form?_withConstants _ immrSmall immsSmall _
        (decide_eq_true extracts)⟩
    cases around <;>
      simp [preferredForms, Surroundings.base, Surroundings.extraction]

/-- The operands of a bitfield move that has been decoded are fields. -/
theorem operands_of_bitfieldMove
    {word : Word}
    (four : word.size = 4)
    {features : Features}
    {raw : RawInstruction}
    (decoded : isa.run table word features = .ok raw)
    {around : Surroundings}
    (isMove : raw.opcode = around.base.id) :
    bitField word.value 16 6 < generalBits (word.value.testBit 31) ∧
      bitField word.value 10 6 < generalBits (word.value.testBit 31) ∧
      raw.operands =
        bitfieldOperands (word.value.testBit 31) (bitField word.value 0 5)
          (bitField word.value 5 5) (bitField word.value 16 6)
          (bitField word.value 10 6) := by
  have known : around.base.format? = some .bitfield := by
    cases around <;> rfl
  rcases exists_read_of_run decoded isMove.symm known with
    ⟨result, read, operands⟩
  rcases eq_of_readBitfield four read with ⟨-, immr, imms, rfl⟩
  exact ⟨immr, imms, operands⟩

/--
A bitfield move that decodes has a preferred form with constants in range. For
all contents of the registers, both forms leave the moved field in the
destination.
-/
theorem bitfieldForm_means_same
    {options : Options}
    {word : Word}
    {raw : RawInstruction}
    (decoded : Engine.decodeRaw ⟨isa, options⟩ word = .ok raw)
    {around : Surroundings}
    (isMove : raw.opcode = around.base.id) :
    let wide := word.value.testBit 31
    let width := generalBits wide
    let destination := bitField word.value 0 5
    let source := bitField word.value 5 5
    let immr := bitField word.value 16 6
    let imms := bitField word.value 10 6
    let form := Alias.canonicalize isa.aliases raw.form
    raw.operands =
        [.register (generalRegister false wide destination),
          .register (generalRegister false wide source),
          smallConstant immr, smallConstant imms] ∧
      form.opcode ≠ raw.opcode ∧
      (∃ (shown : Register) (constants : List Nat),
        form.operands =
            .register (generalRegister false wide destination) ::
              .register shown :: constants.map smallConstant ∧
          ConstantsFit width constants) ∧
      ∀ contents : Contents,
        let moved :=
          bitfieldMove around (contents.read width source)
            (contents.read width destination) immr imms
        let written :=
          some (generalRegister false wide destination, moved.setWidth 64)
        outcome? contents raw.form = written ∧
          outcome? contents form = written := by
  intro wide width destination source immr imms form
  rcases Engine.run_of_decodeRaw (fun _ => rfl) decoded with ⟨four, ran⟩
  rcases operands_of_bitfieldMove four ran isMove with
    ⟨immrSmall, immsSmall, operands⟩
  have isRaw :
      raw.form =
        ⟨around.base.id,
          bitfieldOperands wide destination source immr imms⟩ := by
    rw [RawInstruction.form, isMove, operands]
  rcases exists_applies around immrSmall immsSmall destination source with
    ⟨rule, member, applies⟩
  rw [← isRaw] at applies
  rcases Alias.exists_of_form?_isSome member applies with
    ⟨first, isRule, reduced, same, reduces, isForm⟩
  rw [isRaw] at same reduces
  rcases preserves_of_mem isRule same with
    ⟨short, isShort, other, preserves⟩
  rcases preserves immrSmall immsSmall reduces with
    ⟨shown, constants, rfl, fit, valued⟩
  have formed :
      form =
        ⟨short.id,
          .register (generalRegister false wide destination) ::
            .register shown :: constants.map smallConstant⟩ := by
    rw [← isShort]
    exact isForm
  refine ⟨operands, ?_, ⟨shown, constants, ?_, fit⟩, fun contents => ?_⟩
  · rw [formed, isMove]
    intro sameId
    have found := congrArg Opcode.ofId? sameId
    rw [Opcode.ofId?_id, Opcode.ofId?_id, Option.some.injEq] at found
    exact other found
  · rw [formed]
  · rw [isRaw, formed]
    exact
      ⟨outcome?_base contents around destination source immr imms,
        outcome?_eq contents (valued contents)⟩

/-- A word of `sxtw x0, w1`. -/
def extensionWord : Word :=
  ⟨[0x20, 0x7c, 0x40, 0x93], 0x1000, 0x93407c20, by simp, by decide⟩

/-- What `extensionWord` decodes to. -/
def extension : RawInstruction where
  opcode := Opcode.sbfm.id
  operands := bitfieldOperands true 0 1 0 31
  status := .success
  specifics := .arm64 {}

set_option maxRecDepth 20000 in
/-- The extension of a word is shown with a narrow source. -/
theorem bitfieldForm_means_same_extension :
    Engine.decodeRaw ⟨isa, {}⟩ extensionWord = .ok extension ∧
      extension.opcode = Surroundings.sign.base.id ∧
      Alias.canonicalize isa.aliases extension.form =
        ⟨Opcode.sxtw.id,
          [.register (generalRegister false true 0),
            .register (generalRegister false false 1)]⟩ ∧
      ∀ contents : Contents,
        outcome? contents extension.form =
          outcome? contents
            (Alias.canonicalize isa.aliases extension.form) := by
  have decoded :
      Engine.decodeRaw ⟨isa, {}⟩ extensionWord = .ok extension := by
    rfl
  have isMove : extension.opcode = Surroundings.sign.base.id := by
    rfl
  rcases bitfieldForm_means_same decoded isMove with ⟨-, -, -, means⟩
  refine ⟨decoded, isMove, rfl, fun contents => ?_⟩
  rw [(means contents).1, (means contents).2]

end MachineCode.Arm64
