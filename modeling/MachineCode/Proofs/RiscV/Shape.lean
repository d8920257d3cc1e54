import MachineCode.Proofs.RiscV.Compressed
import MachineCode.Proofs.RiscV.PreferredForm

/-!
# What an opcode says of its operands

The opcode of an instruction, in its preferred form or not, says of which
kinds the operands are and whether there is a rounding mode
(`Opcode.shape?`). The kind of an operand leaves open what the text of the
operand shows: the number of a register, a value, a target. The rest is the
same for all instructions of the opcode. So is the size of an access, which a
word names although its opcode implies it (`Opcode.accessBits`).
-/

namespace MachineCode.RiscV

/-! ## Kinds -/

/-- The kinds of operand. -/
inductive Kind where
  | register (bank : Bank)
  /-- A constant of `bits` bits with a sign. -/
  | signed (bits : Nat)
  | unsigned (bits : Nat)
  /-- An access to `size` bytes. -/
  | memory (size : Nat)
  | target
  | control
deriving DecidableEq, Repr

/-- Whether a number is in the range of 64 bits with a sign. -/
def InRange (value : Int) : Prop :=
  -2 ^ 63 ≤ value ∧ value < 2 ^ 63

/-- The operands of each kind, for an instruction at an address. -/
inductive Kind.Has (xlen : Xlen) (address : Address) :
    Kind → Operand → Prop where
  | register {bank : Bank} {number : Nat} (small : number < 32) :
      Has xlen address (.register bank) (bank.operand xlen number)
  | signed {bits : Nat} {value : Int} (inRange : InRange value) :
      Has xlen address (.signed bits) (.signed value bits)
  | unsigned {bits value : Nat}
      (narrow : bits ≤ 32)
      (small : value < 2 ^ bits) :
      Has xlen address (.unsigned bits) (.unsigned value bits)
  | memory {size base : Nat} {displacement : Int} (small : base < 32) :
      Has xlen address (.memory size)
        (memoryAt xlen base displacement size)
  | target {offset : Int} (inRange : InRange offset) :
      Has xlen address .target (targetAt address offset)
  | control (number : Nat) :
      Has xlen address .control (.systemRegister (controlRegister number))

/-- The kinds of the operands, and whether there is a rounding mode. -/
structure Shape where
  kinds : List Kind
  rounds : Bool
deriving DecidableEq, Repr

/-- Whether operands and a rounding mode have a shape. -/
structure Shape.Admits
    (xlen : Xlen)
    (address : Address)
    (shape : Shape)
    (operands : List Operand)
    (specifics : Specifics) :
    Prop where
  operands : List.Forall₂ (Kind.Has xlen address) shape.kinds operands
  rounding : ∃ mode, specifics = .riscV mode ∧ mode.isSome = shape.rounds

/-! ## Formats -/

namespace Format

/--
The kinds of the operands that a format reads. Two bits of the long loads and
stores name the size of the access.
-/
def kinds (xlen : Xlen) (accessBits : Nat) : Format → List Kind
  | .upper | .shortUpper => [.register .integer, .unsigned 20]
  | .jump => [.register .integer, .target]
  | .jumpRegister | .constant =>
    [.register .integer, .register .integer, .signed 12]
  | .branch => [.register .integer, .register .integer, .target]
  | .load | .store => [.register .integer, .memory (2 ^ accessBits)]
  | .floatLoad | .floatStore =>
    [.register .floating, .memory (2 ^ accessBits)]
  | .shift =>
    [.register .integer, .register .integer, .unsigned xlen.shiftBits]
  | .shiftWord => [.register .integer, .register .integer, .unsigned 5]
  | .registers =>
    [.register .integer, .register .integer, .register .integer]
  | .fence => [.unsigned 4, .unsigned 4]
  | .bare => []
  | .control => [.register .integer, .control, .register .integer]
  | .controlConstant => [.register .integer, .control, .unsigned 5]
  | .floatArithmetic =>
    [.register .floating, .register .floating, .register .floating]
  | .floatToInteger => [.register .integer, .register .floating]
  | .integerToFloat => [.register .floating, .register .integer]
  | .stackAddress =>
    [.register .integer, .register .integer, .unsigned 10]
  | .shortLoadWord | .shortStoreWord | .stackLoadWord | .stackStoreWord =>
    [.register .integer, .memory 4]
  | .shortLoadDouble | .shortStoreDouble | .stackLoadDouble
  | .stackStoreDouble =>
    [.register .integer, .memory 8]
  | .shortFloatLoadWord | .shortFloatStoreWord | .stackFloatLoadWord
  | .stackFloatStoreWord =>
    [.register .floating, .memory 4]
  | .shortFloatLoadDouble | .shortFloatStoreDouble | .stackFloatLoadDouble
  | .stackFloatStoreDouble =>
    [.register .floating, .memory 8]
  | .shortAdd | .shortAddWord | .shortLoadConstant | .shortAnd =>
    [.register .integer, .signed 6]
  | .stackChange => [.register .integer, .signed 10]
  | .shortShift | .shortShiftLeft => [.register .integer, .unsigned 6]
  | .shortArithmetic | .shortMove | .shortAddRegister =>
    [.register .integer, .register .integer]
  | .shortJump => [.target]
  | .shortBranch => [.register .integer, .target]
  | .shortJumpRegister => [.register .integer]

/-- The shape of what a format reads. -/
def shape (xlen : Xlen) (accessBits : Nat) (format : Format) : Shape :=
  ⟨format.kinds xlen accessBits, format = .floatArithmetic⟩

/-- Whether the word names the size of an access. -/
def isSized : Format → Bool
  | .load | .store | .floatLoad | .floatStore => true
  | _ => false

/-- Whether a format belongs to words of four bytes. -/
def isLong (format : Format) : Bool :=
  format.id < Format.stackAddress.id

/-- Whether a format belongs to words of two bytes. -/
def isShort (format : Format) : Bool :=
  format.parts.isSome

end Format

section Kinds

variable {xlen : Xlen} {address : Address}

/-- A register that five bits name. -/
theorem Kind.has_field (bank : Bank) (value start : Nat) :
    Kind.Has xlen address (.register bank)
      (bank.operand xlen (bitField value start 5)) :=
  .register (bitField_lt value start 5)

/-- A register that three bits name. -/
theorem Kind.has_shortField (bank : Bank) (value start : Nat) :
    Kind.Has xlen address (.register bank)
      (bank.operand xlen (8 + bitField value start 3)) := by
  have small : bitField value start 3 < 8 := bitField_lt value start 3
  exact .register (by omega)

/-- Memory at a distance from a register that five bits name. -/
theorem Kind.has_memory
    (value start : Nat)
    (displacement : Int)
    (size : Nat) :
    Kind.Has xlen address (.memory size)
      (memoryAt xlen (bitField value start 5) displacement size) :=
  .memory (bitField_lt value start 5)

theorem Kind.has_shortMemory
    (value start : Nat)
    (displacement : Int)
    (size : Nat) :
    Kind.Has xlen address (.memory size)
      (memoryAt xlen (8 + bitField value start 3) displacement size) := by
  have small : bitField value start 3 < 8 := bitField_lt value start 3
  exact .memory (by omega)

theorem Kind.has_unsignedField
    (value start : Nat)
    {bits : Nat}
    (narrow : bits ≤ 32) :
    Kind.Has xlen address (.unsigned bits)
      (.unsigned (bitField value start bits) bits) :=
  .unsigned narrow (bitField_lt value start bits)

theorem Kind.has_signedField
    (value : Nat)
    {bits : Nat}
    (size : Nat)
    (narrow : bits ≤ 64) :
    Kind.Has xlen address (.signed size)
      (.signed (signExtend value bits) size) :=
  .signed (signExtend_bounds narrow (by decide))

theorem Kind.has_target
    (value : Nat)
    {bits : Nat}
    (narrow : bits ≤ 64) :
    Kind.Has xlen address .target
      (targetAt address (signExtend value bits)) :=
  .target (signExtend_bounds narrow (by decide))

/-- The operands of a reading without a rounding mode have a shape. -/
theorem admits_of_kinds
    {kinds : List Kind}
    {operands : List Operand}
    (has : List.Forall₂ (Kind.Has xlen address) kinds operands) :
    Shape.Admits xlen address ⟨kinds, false⟩ operands (.riscV none) :=
  ⟨has, none, rfl, rfl⟩

end Kinds

section Access

variable
  {xlen : Xlen}
  {word : Word}
  {result : Reading}
  (four : word.size = 4)
include four

theorem admits_of_readLoad
    {bank : Bank}
    (read : readLoad xlen (bank.file xlen) word = .ok result) :
    Shape.Admits xlen word.address
      ⟨[.register bank, .memory (2 ^ bitField word.value 12 2)], false⟩
      result.operands result.specifics := by
  rw [readLoad_eq four] at read
  cases read
  exact admits_of_kinds
    (.cons (Kind.has_field bank _ _) (.cons (Kind.has_memory ..) .nil))

theorem admits_of_readStore
    {bank : Bank}
    (read : readStore xlen (bank.file xlen) word = .ok result) :
    Shape.Admits xlen word.address
      ⟨[.register bank, .memory (2 ^ bitField word.value 12 2)], false⟩
      result.operands result.specifics := by
  rw [readStore_eq four] at read
  cases read
  exact admits_of_kinds
    (.cons (Kind.has_field bank _ _) (.cons (Kind.has_memory ..) .nil))

theorem admits_of_readShift
    {bits : Nat}
    (nonempty : bits ≠ 0)
    (inside : 20 + bits ≤ 32)
    (read : readShift xlen bits word = .ok result) :
    Shape.Admits xlen word.address
      ⟨[.register .integer, .register .integer, .unsigned bits], false⟩
      result.operands result.specifics := by
  rw [readShift_eq four nonempty inside] at read
  cases read
  exact admits_of_kinds
    (.cons (Kind.has_field .integer _ _)
      (.cons (Kind.has_field .integer _ _)
        (.cons (Kind.has_unsignedField _ _ (by omega)) .nil)))

theorem admits_of_readMove
    {destinations sources : Bank}
    (read :
      readMove (destinations.file xlen) (sources.file xlen) word =
        .ok result) :
    Shape.Admits xlen word.address
      ⟨[.register destinations, .register sources], false⟩
      result.operands result.specifics := by
  rw [readMove_eq four] at read
  cases read
  exact admits_of_kinds
    (.cons (Kind.has_field destinations _ _)
      (.cons (Kind.has_field sources _ _) .nil))

end Access

section Read

variable
  {xlen : Xlen}
  {word : Word}
  {format : Format}
  {result : Reading}
  (read : format.read xlen word = .ok result)
include read

/-- What a format reads from a word of four bytes has its shape. -/
theorem Format.admits_of_readLong
    (four : word.size = 4)
    (long : format.isLong)
    {accessBits : Nat}
    (sized : format.isSized → bitField word.value 12 2 = accessBits) :
    (format.shape xlen accessBits).Admits xlen word.address result.operands
      result.specifics := by
  cases format with
  | upper =>
      rw [Format.read, readUpper_eq four] at read
      cases read
      exact admits_of_kinds
        (.cons (Kind.has_field .integer _ _)
          (.cons (Kind.has_unsignedField _ _ (by decide)) .nil))
  | jump =>
      rw [Format.read, readJump_eq four] at read
      cases read
      exact admits_of_kinds
        (.cons (Kind.has_field .integer _ _)
          (.cons (Kind.has_target _ (by decide)) .nil))
  | jumpRegister | constant =>
      rw [Format.read, readConstant_eq four] at read
      cases read
      exact admits_of_kinds
        (.cons (Kind.has_field .integer _ _)
          (.cons (Kind.has_field .integer _ _)
            (.cons (Kind.has_signedField _ _ (by decide)) .nil)))
  | branch =>
      rw [Format.read, readBranch_eq four] at read
      cases read
      exact admits_of_kinds
        (.cons (Kind.has_field .integer _ _)
          (.cons (Kind.has_field .integer _ _)
            (.cons (Kind.has_target _ (by decide)) .nil)))
  | load =>
      rw [← sized rfl]
      exact @admits_of_readLoad xlen word result four .integer read
  | floatLoad =>
      rw [← sized rfl]
      exact @admits_of_readLoad xlen word result four .floating read
  | store =>
      rw [← sized rfl]
      exact @admits_of_readStore xlen word result four .integer read
  | floatStore =>
      rw [← sized rfl]
      exact @admits_of_readStore xlen word result four .floating read
  | shift =>
      exact admits_of_readShift four (by cases xlen <;> decide)
        (by cases xlen <;> decide) read
  | shiftWord =>
      exact admits_of_readShift four (by decide) (by decide) read
  | registers =>
      have three := @readThree_eq xlen word four .integer
      rw [Bank.file] at three
      simp only [Format.read, three] at read
      cases read
      exact admits_of_kinds
        (.cons (Kind.has_field .integer _ _)
          (.cons (Kind.has_field .integer _ _)
            (.cons (Kind.has_field .integer _ _) .nil)))
  | fence =>
      rw [Format.read, readFence_eq four] at read
      cases read
      exact admits_of_kinds
        (.cons (Kind.has_unsignedField _ _ (by decide))
          (.cons (Kind.has_unsignedField _ _ (by decide)) .nil))
  | bare =>
      cases read
      exact admits_of_kinds .nil
  | control =>
      rw [Format.read, readControl_eq four] at read
      cases read
      exact admits_of_kinds
        (.cons (Kind.has_field .integer _ _)
          (.cons (.control _)
            (.cons (Kind.has_field .integer _ _) .nil)))
  | controlConstant =>
      rw [Format.read, readControlConstant_eq four] at read
      cases read
      exact admits_of_kinds
        (.cons (Kind.has_field .integer _ _)
          (.cons (.control _)
            (.cons (Kind.has_unsignedField _ _ (by decide)) .nil)))
  | floatArithmetic =>
      rcases exists_mode_of_readFloat four read with ⟨mode, accepted⟩
      rw [Format.read, readFloat_eq four accepted] at read
      cases read
      exact
        ⟨.cons (Kind.has_field .floating _ _)
          (.cons (Kind.has_field .floating _ _)
            (.cons (Kind.has_field .floating _ _) .nil)),
          some mode, rfl, rfl⟩
  | floatToInteger =>
      exact @admits_of_readMove xlen word result four .integer .floating read
  | integerToFloat =>
      exact @admits_of_readMove xlen word result four .floating .integer read
  | _ => cases long

omit read in
theorem ReadsAs.admits
    {address : Address}
    {kinds : List Kind}
    {operands : List Operand}
    (reads : ReadsAs operands result)
    (has : List.Forall₂ (Kind.Has xlen address) kinds operands) :
    Shape.Admits xlen address ⟨kinds, false⟩ result.operands
      result.specifics := by
  rcases reads with ⟨rfl, specifics⟩
  rw [specifics]
  exact admits_of_kinds has

/-- What a format reads from a word of two bytes has its shape. -/
theorem Format.admits_of_readShort
    (two : word.size = 2)
    (short : format.isShort)
    (accessBits : Nat) :
    (format.shape xlen accessBits).Admits xlen word.address result.operands
      result.specifics := by
  have sixBits : shortBits word < 2 ^ 6 :=
    @gather_lt word.value 0 Immediate.shortConstant (by decide) (by decide)
  cases format with
  | stackAddress =>
      refine (readsAs_of_readStackAddress two read).admits
        (.cons (Kind.has_shortField .integer _ _)
          (.cons (.register (by decide))
            (.cons (.unsigned (by decide) ?_) .nil)))
      exact @gather_lt word.value 2 Immediate.stackAddress (by decide)
        (by decide)
  | shortLoadWord | shortStoreWord | shortLoadDouble | shortStoreDouble =>
      exact (@readsAs_of_readShortAccess xlen word result .integer two _ _
        read).admits
        (.cons (Kind.has_shortField .integer _ _)
          (.cons (Kind.has_shortMemory ..) .nil))
  | shortFloatLoadWord | shortFloatStoreWord | shortFloatLoadDouble
  | shortFloatStoreDouble =>
      exact (@readsAs_of_readShortAccess xlen word result .floating two _ _
        read).admits
        (.cons (Kind.has_shortField .floating _ _)
          (.cons (Kind.has_shortMemory ..) .nil))
  | shortAdd =>
      exact (readsAs_of_readShortAdd two read).admits
        (.cons (Kind.has_field .integer _ _)
          (.cons (Kind.has_signedField _ _ (by decide)) .nil))
  | shortAddWord =>
      exact (readsAs_of_readShortAddWord two read).admits
        (.cons (Kind.has_field .integer _ _)
          (.cons (Kind.has_signedField _ _ (by decide)) .nil))
  | shortLoadConstant =>
      exact (readsAs_of_readShortLoadConstant two read).admits
        (.cons (Kind.has_field .integer _ _)
          (.cons (Kind.has_signedField _ _ (by decide)) .nil))
  | stackChange =>
      exact (readsAs_of_readStackChange two read).admits
        (.cons (Kind.has_field .integer _ _)
          (.cons (Kind.has_signedField _ _ (by decide)) .nil))
  | shortAnd =>
      exact (readsAs_of_readShortAnd two read).admits
        (.cons (Kind.has_shortField .integer _ _)
          (.cons (Kind.has_signedField _ _ (by decide)) .nil))
  | shortUpper =>
      exact (readsAs_of_readShortUpper two read).admits
        (.cons (Kind.has_field .integer _ _)
          (.cons (.unsigned (by decide) (twosComplement_lt ..)) .nil))
  | shortShift =>
      exact (readsAs_of_readShortShift two read).1.admits
        (.cons (Kind.has_shortField .integer _ _)
          (.cons (.unsigned (by decide) sixBits) .nil))
  | shortShiftLeft =>
      exact (readsAs_of_readShortShiftLeft two read).1.admits
        (.cons (Kind.has_field .integer _ _)
          (.cons (.unsigned (by decide) sixBits) .nil))
  | shortArithmetic =>
      exact (readsAs_of_readShortArithmetic two read).admits
        (.cons (Kind.has_shortField .integer _ _)
          (.cons (Kind.has_shortField .integer _ _) .nil))
  | shortMove | shortAddRegister =>
      exact (readsAs_of_readShortMove two read).admits
        (.cons (Kind.has_field .integer _ _)
          (.cons (Kind.has_field .integer _ _) .nil))
  | shortJump =>
      exact (readsAs_of_readShortJump two read).admits
        (.cons (Kind.has_target _ (by decide)) .nil)
  | shortBranch =>
      exact (readsAs_of_readShortBranch two read).admits
        (.cons (Kind.has_shortField .integer _ _)
          (.cons (Kind.has_target _ (by decide)) .nil))
  | shortJumpRegister =>
      exact (readsAs_of_readShortJumpRegister two read).admits
        (.cons (Kind.has_field .integer _ _) .nil)
  | stackLoadWord | stackLoadDouble =>
      exact (@readsAs_of_readStackLoad xlen word result .integer two _ _ _
        read).admits
        (.cons (Kind.has_field .integer _ _)
          (.cons (.memory (by decide)) .nil))
  | stackFloatLoadWord | stackFloatLoadDouble =>
      exact (@readsAs_of_readStackLoad xlen word result .floating two _ _ _
        read).admits
        (.cons (Kind.has_field .floating _ _)
          (.cons (.memory (by decide)) .nil))
  | stackStoreWord | stackStoreDouble =>
      exact (@readsAs_of_readStackStore xlen word result .integer two _ _
        read).admits
        (.cons (Kind.has_field .integer _ _)
          (.cons (.memory (by decide)) .nil))
  | stackFloatStoreWord | stackFloatStoreDouble =>
      exact (@readsAs_of_readStackStore xlen word result .floating two _ _
        read).admits
        (.cons (Kind.has_field .floating _ _)
          (.cons (.memory (by decide)) .nil))
  | bare =>
      cases read
      exact admits_of_kinds .nil
  | _ => cases short

end Read

/-! ## Opcodes -/

/-- The format in which the operands of an opcode are read. -/
def Opcode.readFormat? (opcode : Opcode) : Option Format :=
  (Wide.table.entries ++ Compressed.table.entries).findSome? fun entry =>
    match entry with
    | .decode number format =>
      if number = opcode.id then Format.ofId? format else none
    | _ => none

/-- The two bits in which a long load or store names the size. -/
def Opcode.accessBits : Opcode → Nat
  | .lh | .lhu | .sh => 1
  | .lw | .lwu | .sw | .flw | .fsw => 2
  | .ld | .sd | .fld | .fsd => 3
  | _ => 0

/-- The shape of what is read for an opcode. -/
def Opcode.readShape? (xlen : Xlen) (opcode : Opcode) : Option Shape :=
  opcode.readFormat?.map fun format => format.shape xlen opcode.accessBits

/-- The shape of an opcode, which may be that of a preferred form. -/
def Opcode.shape? (xlen : Xlen) (opcode : Opcode) : Option Shape :=
  match opcode.meaning? with
  | none => opcode.readShape? xlen
  | some meaning =>
    (meaning.base.readShape? xlen).map fun shape =>
      ⟨Slot.writtenOf meaning.slots shape.kinds, shape.rounds⟩

/--
Whether the end of a path reads the opcode in its own format, among those that
are expected, and the path tells the size of an access.
-/
def pathIsShaped (expected : Format → Bool) (path : Path) : Bool :=
  match path.ending with
  | .fail => true
  | .decode number formatNumber _ _ =>
    match Opcode.ofId? number, Format.ofId? formatNumber with
    | some opcode, some format =>
      expected format && opcode.meaning?.isNone &&
        opcode.readFormat? = some format &&
        (!format.isSized ||
          (Path.knownBy path.guards).verdict 12 2 opcode.accessBits =
            some true)
    | _, _ => false

theorem Wide.isShaped_of_mem :
    ∀ path ∈ program.paths, pathIsShaped Format.isLong path := by
  decide +kernel

theorem Compressed.isShaped_of_mem :
    ∀ path ∈ program.paths, pathIsShaped Format.isShort path := by
  decide +kernel

/-! ## Decoding -/

section Decoding

variable
  {xlen : Xlen}
  {word : Word}
  {raw : RawInstruction}

/-- What a program decodes has the shape of its opcode. -/
theorem exists_admits_of_eval
    {expected : Format → Bool}
    {program : Program}
    (shaped : ∀ path ∈ program.paths, pathIsShaped expected path)
    (reads :
      ∀ {format : Format} {result : Reading} {accessBits : Nat},
        format.read xlen word = .ok result →
          expected format →
          (format.isSized → bitField word.value 12 2 = accessBits) →
          (format.shape xlen accessBits).Admits xlen word.address
            result.operands result.specifics)
    {features : Features}
    (decoded : program.eval (isa xlen) features word = .ok raw) :
    ∃ (opcode : Opcode) (shape : Shape),
      opcode.id = raw.opcode ∧
        opcode.meaning? = none ∧
        opcode.readShape? xlen = some shape ∧
        shape.Admits xlen word.address raw.operands raw.specifics := by
  rcases Program.exists_path_of_eval decoded with
    ⟨path, member, holds, number, formatNumber, zeros, ones, ending,
      finished⟩
  rcases Isa.exists_reading_of_finishDecode finished with
    ⟨result, read, rfl, sameOperands, sameSpecifics⟩
  rcases exists_format_of_readOperands read with ⟨format, named, read⟩
  have sound := shaped path member
  simp only [pathIsShaped, ending, named] at sound
  split at sound
  · next opcode _ found same =>
    cases same
    simp only [Bool.and_eq_true, decide_eq_true_eq,
      Option.isNone_iff_eq_none] at sound
    rcases sound with ⟨⟨⟨isExpected, noMeaning⟩, isRead⟩, judged⟩
    -- The path has tested the bits that a load or store names its size with.
    have sized :
        format.isSized → bitField word.value 12 2 = opcode.accessBits := by
      intro isSized
      rw [isSized, Bool.not_true, Bool.false_or, decide_eq_true_eq]
        at judged
      have same := (Path.agrees_knownBy holds).verdict judged
      rwa [decide_eq_true_eq] at same
    refine ⟨opcode, format.shape xlen opcode.accessBits,
      Opcode.id_of_ofId? found, noMeaning, ?_, ?_⟩
    · rw [Opcode.readShape?, isRead, Option.map_some]
    · rw [sameOperands, sameSpecifics]
      exact reads read isExpected sized
  · cases sound

/-- What has been decoded has the shape of its opcode. -/
theorem exists_admits_of_decodeRaw
    {options : Options}
    (decoded : Engine.decodeRaw ⟨isa xlen, options⟩ word = .ok raw) :
    ∃ (opcode : Opcode) (shape : Shape),
      opcode.id = raw.opcode ∧
        opcode.meaning? = none ∧
        opcode.readShape? xlen = some shape ∧
        shape.Admits xlen word.address raw.operands raw.specifics := by
  rcases run_of_decodeRaw decoded with ⟨two, ran⟩ | ⟨four, ran⟩
  · have sixteen : word.width = 16 := by rw [Word.width, two]
    rw [Compressed.table,
      (isa xlen).run_toTable_of_validate _ Compressed.validate_table
        sixteen]
      at ran
    exact exists_admits_of_eval Compressed.isShaped_of_mem
      (fun read short _ => Format.admits_of_readShort read two short _) ran
  · rw [Wide.run_eq_eval xlen _ four] at ran
    exact exists_admits_of_eval Wide.isShaped_of_mem
      (fun read long sized =>
        Format.admits_of_readLong read four long sized)
      ran

/-- The operands in the places that are written keep their kinds. -/
theorem has_writtenOf
    {address : Address}
    {kinds : List Kind}
    {operands : List Operand}
    (has : List.Forall₂ (Kind.Has xlen address) kinds operands)
    (slots : List Slot) :
    List.Forall₂ (Kind.Has xlen address) (Slot.writtenOf slots kinds)
      (Slot.writtenOf slots operands) := by
  induction slots generalizing kinds operands with
  | nil => exact .nil
  | cons slot slots induction =>
      cases has with
      | nil => cases slot <;> exact .nil
      | cons first others =>
        cases slot with
        | written => exact .cons first (induction others)
        | register | control | constant => exact induction others

/-- A decoded instruction has the shape of its opcode. -/
theorem exists_admits_of_decodeWord
    {options : Options}
    {wantDetail : Bool}
    {decoded : Decoded}
    (success :
      Engine.decodeWord ⟨isa xlen, options⟩ word wantDetail = .ok decoded) :
    ∃ (opcode : Opcode) (operands : List Operand) (specifics : Specifics)
      (shape : Shape),
      opcode.shape? xlen = some shape ∧
        shape.Admits xlen word.address operands specifics ∧
        decoded.instruction =
          Engine.describe ⟨isa xlen, options⟩ word ⟨opcode.id, operands⟩
            opcode.info specifics wantDetail := by
  rcases exists_describe_of_decodeWord success with
    ⟨raw, opcode, operands, read, preferred, described⟩
  rcases exists_admits_of_decodeRaw read with
    ⟨base, shape, isBase, noMeaning, isRead, admits⟩
  rcases eq_or_fillsPlaces_of_decodeRaw read with unchanged | fills
  · have sameForm := preferred.symm.trans unchanged
    rw [RawInstruction.form, Form.mk.injEq] at sameForm
    cases Opcode.id_injective (sameForm.1.trans isBase.symm)
    refine ⟨opcode, operands, raw.specifics, shape, ?_, ?_, described⟩
    · rw [Opcode.shape?, noMeaning]
      exact isRead
    · rw [sameForm.2]
      exact admits
  · rw [preferred] at fills
    rcases fills with ⟨shown, meaning, listed, sameBase, isShown, filled⟩
    cases Opcode.id_injective isShown
    cases Opcode.id_injective (sameBase.trans isBase.symm)
    have has := has_writtenOf admits.operands meaning.slots
    rw [Slot.writtenOf_of_fill filled] at has
    refine ⟨opcode, operands, raw.specifics,
      ⟨Slot.writtenOf meaning.slots shape.kinds, shape.rounds⟩, ?_,
      ⟨has, admits.rounding⟩, described⟩
    simp only [Opcode.shape?, listed, isRead, Option.map_some]

end Decoding

end MachineCode.RiscV
