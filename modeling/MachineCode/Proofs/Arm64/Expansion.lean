import MachineCode.Arm64.InstructionSet
import MachineCode.Proofs.Alias
import MachineCode.Proofs.Arm64.Meaning
import MachineCode.Proofs.Arm64.Operands
import MachineCode.Proofs.Arm64.Reductions
import MachineCode.Proofs.Bits
import MachineCode.Proofs.Table.Decoding
import MachineCode.Proofs.Table.Layout

/-!
# Expanding preferred forms

Nothing is lost when an instruction is put into its preferred form: what has
been decoded is the expansion of its preferred form (`expand?_preferredForm`).
Each way of leaving out operands is undone by the definition of the form
(`Undone`), for all operands that the format of the opcode gives
(`Format.Gives`): one word names general registers of one width, so a zero
register that is left out is known by its neighbour.
-/

namespace MachineCode.Arm64

/-! ## The operands of instructions with preferred forms -/

/-- The format of an opcode that has preferred forms. -/
def Opcode.format? : Opcode → Option Format
  | .addImmediate | .addsImmediate | .subsImmediate => some .addConstant
  | .andsImmediate | .orrImmediate => some .logicalConstant
  | .movz | .movn => some .wideMove
  | .sbfm | .bfm | .ubfm => some .bitfield
  | .extr => some .extract
  | .ret => some .branchRegister
  | .hint => some .hint
  | .orrRegister | .ornRegister | .andsRegister => some .logicalRegister
  | .addsRegister | .subRegister | .subsRegister => some .addRegister
  | .csinc | .csinv | .csneg => some .select
  | .lslv | .lsrv | .asrv | .rorv => some .twoSources
  | .madd | .msub => some .threeSources
  | _ => none

/-- The formats that preferred forms have. -/
def Format.common : List Format :=
  [.addConstant, .logicalConstant, .wideMove, .bitfield, .extract,
    .branchRegister, .hint, .logicalRegister, .addRegister, .select,
    .twoSources, .threeSources]

theorem mem_common_of_format?
    {opcode : Opcode}
    {format : Format}
    (known : opcode.format? = some format) :
    format ∈ Format.common := by
  unfold Opcode.format? at known
  split at known <;> cases known <;> decide

/-- The operands that the formats of instructions with preferred forms give. -/
inductive Format.Gives : Format → List Operand → Prop where
  | addConstant (address wide : Bool) (destination source constant : Nat)
      (shift : List Operand) :
      Gives .addConstant
        (.register (generalRegister address wide destination) ::
          .register (generalRegister true wide source) ::
          .unsigned constant 12 :: shift)
  | logicalConstant (address wide : Bool)
      (destination source value : Nat) :
      Gives .logicalConstant
        [.register (generalRegister address wide destination),
          .register (generalRegister false wide source),
          .unsigned value (generalBits wide)]
  | wideMove (wide : Bool) (destination : Nat) {constant place : Nat}
      (small : constant < 2 ^ 16)
      (inside : 16 * place < generalBits wide) :
      Gives .wideMove
        ([.register (generalRegister false wide destination),
          .unsigned constant 16] ++
          if place = 0 then [] else [.shift ⟨.lsl, 16 * place⟩])
  | bitfield (wide : Bool) (destination source : Nat) {immr imms : Nat}
      (immrSmall : immr < generalBits wide)
      (immsSmall : imms < generalBits wide) :
      Gives .bitfield
        [.register (generalRegister false wide destination),
          .register (generalRegister false wide source),
          smallConstant immr, smallConstant imms]
  | extract (wide : Bool) (destination high low distance : Nat) :
      Gives .extract
        [.register (generalRegister false wide destination),
          .register (generalRegister false wide high),
          .register (generalRegister false wide low),
          smallConstant distance]
  | branchRegister (target : Nat) :
      Gives .branchRegister [.register (generalRegister false true target)]
  | hint (code : Nat) : Gives .hint [.unsigned code 7]
  | logicalRegister (wide : Bool)
      (destination first second kind amount : Nat) :
      Gives .logicalRegister
        [.register (generalRegister false wide destination),
          .register (generalRegister false wide first),
          shiftedOperand (generalRegister false wide second) kind amount]
  | addRegister (wide : Bool)
      (destination first second kind amount : Nat) :
      Gives .addRegister
        [.register (generalRegister false wide destination),
          .register (generalRegister false wide first),
          shiftedOperand (generalRegister false wide second) kind amount]
  | select (wide : Bool) (destination first second : Nat)
      (condition : Condition) :
      Gives .select
        [.register (generalRegister false wide destination),
          .register (generalRegister false wide first),
          .register (generalRegister false wide second),
          .condition condition]
  | twoSources (wide : Bool) (destination first second : Nat) :
      Gives .twoSources
        [.register (generalRegister false wide destination),
          .register (generalRegister false wide first),
          .register (generalRegister false wide second)]
  | threeSources (wide : Bool) (destination first second third : Nat) :
      Gives .threeSources
        [.register (generalRegister false wide destination),
          .register (generalRegister false wide first),
          .register (generalRegister false wide second),
          .register (generalRegister false wide third)]

/-- What is read from a word in such a format is of its shape. -/
theorem Format.gives_of_read
    {word : Word}
    (four : word.size = 4)
    {format : Format}
    {result : Reading}
    (read : format.read word = .ok result)
    (common : format ∈ Format.common) :
    format.Gives result.operands := by
  cases format with
  | addConstant =>
      rw [Format.read, readAddConstant_eq four] at read
      cases read
      exact .addConstant ..
  | logicalConstant =>
      rcases exists_pattern_of_readLogicalConstant four read with
        ⟨pattern, -, -, -, rfl⟩
      exact .logicalConstant ..
  | wideMove =>
      rcases eq_of_readWideMove four read with ⟨narrowPlace, rfl⟩
      refine .wideMove _ _ (bitField_lt ..) ?_
      have place := bitField_lt word.value 21 2
      cases wide : word.value.testBit 31 with
      | false =>
          have := narrowPlace wide
          show 16 * _ < 32
          omega
      | true =>
          show 16 * _ < 64
          omega
  | bitfield =>
      rcases eq_of_readBitfield four read with ⟨-, immr, imms, rfl⟩
      exact .bitfield _ _ _ immr imms
  | extract =>
      rcases eq_of_readExtract four read with ⟨-, rfl⟩
      exact .extract ..
  | branchRegister =>
      rw [Format.read, readBranchRegister_eq four] at read
      cases read
      exact .branchRegister _
  | hint =>
      rw [Format.read, readCode_eq four (by decide) (by decide)] at read
      cases read
      exact .hint _
  | logicalRegister =>
      cases eq_of_readShifted four read
      exact .logicalRegister ..
  | addRegister =>
      cases eq_of_readShifted four read
      exact .addRegister ..
  | select =>
      rw [Format.read, readSelect_eq four] at read
      cases read
      exact .select ..
  | twoSources =>
      rw [Format.read, readSources_eq four] at read
      cases read
      exact .twoSources ..
  | threeSources =>
      rw [Format.read, readSources_eq four] at read
      cases read
      exact .threeSources ..
  | _ => exact absurd common (by decide)

/-- Whether an opcode with preferred forms stands beside its format. -/
def isKnown (opcode format : Nat) : Bool :=
  match (Opcode.ofId? opcode).bind Opcode.format? with
  | some known => format = known.id
  | none => true

theorem isKnown_of_mem : ∀ entry ∈ table.entries, entry.fits isKnown := by
  decide +kernel

/-- What has been decoded is read in the format of its opcode. -/
theorem exists_read_of_run
    {word : Word}
    {features : Features}
    {raw : RawInstruction}
    (decoded : isa.run table word features = .ok raw)
    {opcode : Opcode}
    (same : opcode.id = raw.opcode)
    {format : Format}
    (known : opcode.format? = some format) :
    ∃ result,
      format.read word = .ok result ∧ raw.operands = result.operands := by
  rcases Isa.exists_fit_of_run isKnown_of_mem decoded with
    ⟨number, result, sameFormat, read, operands, -⟩
  rw [isKnown, ← same, Opcode.ofId?_id, Option.bind_some, known,
    decide_eq_true_eq] at sameFormat
  rw [sameFormat] at read
  exact ⟨result, by simpa [isa] using read, operands⟩

/-- The operands of what has been decoded have the shape of their format. -/
theorem gives_of_run
    {word : Word}
    (four : word.size = 4)
    {features : Features}
    {raw : RawInstruction}
    (decoded : isa.run table word features = .ok raw)
    {opcode : Opcode}
    (same : opcode.id = raw.opcode)
    {format : Format}
    (known : opcode.format? = some format) :
    format.Gives raw.operands := by
  rcases exists_read_of_run decoded same known with ⟨result, read, operands⟩
  rw [operands]
  exact Format.gives_of_read four read (mem_common_of_format? known)

/-! ## Registers that are left out -/

/-- The register with the number of the zero register is the zero register. -/
theorem eq_zero_of_isZero
    {address wide : Bool}
    {number : Nat}
    (zero : isZero (.register (generalRegister address wide number))) :
    generalRegister address wide number =
      ⟨.arm64, .general, zeroRegister, generalBits wide⟩ := by
  simp only [isZero, Operand.isRegister, Operand.register?, Option.map_some,
    Option.some.injEq, decide_eq_true_eq] at zero
  unfold generalRegister at zero ⊢
  split at zero
  · cases zero
  · next data =>
    rw [if_neg data, show number = zeroRegister from zero]

/-- The zero register beside a register of the same word. -/
theorem zeroBeside_eq
    {address other wide : Bool}
    {number otherNumber : Nat}
    (isZero : isZero (.register (generalRegister other wide otherNumber))) :
    zeroBeside (.register (generalRegister address wide number)) =
      some (.register (generalRegister other wide otherNumber)) := by
  rw [zeroBeside, generalRegister_size, eq_zero_of_isZero isZero]

variable {format : Format} {operands reduced : List Operand}

/-- Most formats start with two general registers of one width. -/
theorem Format.Gives.exists_registers
    (gives : format.Gives operands)
    (several : format ∉ [.wideMove, .branchRegister, .hint]) :
    ∃ address other wide destination source rest,
      operands =
        .register (generalRegister address wide destination) ::
          .register (generalRegister other wide source) :: rest := by
  cases gives with
  | wideMove | branchRegister | hint => simp at several
  | addConstant | logicalConstant | bitfield | extract | logicalRegister
  | addRegister | select | twoSources | threeSources =>
      exact ⟨_, _, _, _, _, _, rfl⟩

theorem intoZero_of_withoutDestination
    (gives : format.Gives operands)
    (several : format ∉ [.wideMove, .branchRegister, .hint])
    (reduces : withoutDestination operands = some reduced) :
    Meaning.intoZero reduced = some operands := by
  rcases exists_of_withoutDestination reduces with ⟨destination, zero, rfl⟩
  rcases gives.exists_registers several with
    ⟨address, other, wide, number, source, rest, same⟩
  cases same
  rw [Meaning.intoZero, zeroBeside_eq zero]
  rfl

theorem fromZero_of_withoutFirstSource
    (gives : format.Gives operands)
    (several : format ∉ [.wideMove, .branchRegister, .hint])
    (reduces : withoutFirstSource operands = some reduced) :
    Meaning.fromZero reduced = some operands := by
  rcases exists_of_withoutFirstSource reduces with
    ⟨destination, first, rest, zero, rfl, rfl⟩
  rcases gives.exists_registers several with
    ⟨address, other, wide, number, source, others, same⟩
  cases same
  rw [Meaning.fromZero, zeroBeside_eq zero]
  rfl

theorem withZero_of_withoutAddend
    (gives : Format.Gives .threeSources operands)
    (reduces : withoutAddend operands = some reduced) :
    Meaning.withZero reduced = some operands := by
  rcases exists_of_withoutAddend reduces with
    ⟨destination, first, second, addend, zero, rfl, rfl⟩
  cases gives
  rw [Meaning.withZero, zeroBeside_eq zero]
  rfl

/-! ## Moves -/

theorem addingZero_of_stackMove
    (gives : Format.Gives .addConstant operands)
    (reduces : stackMove operands = some reduced) :
    Meaning.addingZero reduced = some operands := by
  rcases exists_of_stackMove reduces with
    ⟨destination, source, constant, zero, rfl, rfl⟩
  cases gives with
  | addConstant _ _ _ _ value =>
      simp only [Operand.isConstant, Operand.unsigned,
        Operand.immediateValue?, Option.some.injEq, decide_eq_true_eq,
        Int.natCast_eq_zero] at zero
      rw [Meaning.addingZero, zero]

/-- The bits of a constant are found at the place they were moved to. -/
theorem wideParts_mul_two_pow
    {constant place : Nat}
    (small : constant < 2 ^ 16)
    (lowest : constant = 0 → place = 0) :
    Meaning.wideParts (constant * 2 ^ (16 * place)) =
      .unsigned constant 16 ::
        if place = 0 then [] else [.shift ⟨.lsl, 16 * place⟩] := by
  have found :
      Nat.log2 (constant * 2 ^ (16 * place)) / 16 = place := by
    by_cases zero : constant = 0
    · rw [zero, lowest zero]
      decide
    · have positive := Nat.two_pow_pos (16 * place)
      have nonzero : constant * 2 ^ (16 * place) ≠ 0 :=
        Nat.mul_ne_zero zero (Nat.ne_of_gt positive)
      have low : 16 * place ≤ Nat.log2 (constant * 2 ^ (16 * place)) := by
        rw [Nat.le_log2 nonzero]
        exact Nat.le_mul_of_pos_left _ (Nat.pos_of_ne_zero zero)
      have high :
          Nat.log2 (constant * 2 ^ (16 * place)) < 16 + 16 * place := by
        rw [Nat.log2_lt nonzero, Nat.pow_add]
        exact Nat.mul_lt_mul_of_pos_right small positive
      omega
  simp only [Meaning.wideParts, found,
    Nat.mul_div_cancel _ (Nat.two_pow_pos _), Nat.mul_eq_zero]
  by_cases atBottom : place = 0
  · simp [atBottom]
  · simp [atBottom]

/-- Sixteen bits at a place of the register fit into the register. -/
theorem constant_mul_lt
    {wide : Bool}
    {constant place : Nat}
    (small : constant < 2 ^ 16)
    (inside : 16 * place < generalBits wide) :
    constant * 2 ^ (16 * place) < 2 ^ generalBits wide := by
  have whole : 16 + 16 * place ≤ generalBits wide := by
    cases wide with
    | false =>
        change 16 * place < 32 at inside
        show 16 + 16 * place ≤ 32
        omega
    | true =>
        change 16 * place < 64 at inside
        show 16 + 16 * place ≤ 64
        omega
  calc constant * 2 ^ (16 * place)
      < 2 ^ 16 * 2 ^ (16 * place) :=
        Nat.mul_lt_mul_of_pos_right small (Nat.two_pow_pos _)
    _ = 2 ^ (16 + 16 * place) := (Nat.pow_add ..).symm
    _ ≤ 2 ^ generalBits wide := Nat.pow_le_pow_right (by decide) whole

theorem generalBits_le (wide : Bool) : generalBits wide ≤ 64 := by
  cases wide <;> decide

/-- A small number is its own pattern of 64 bits. -/
theorem toUnsigned64_natCast
    {value : Nat}
    (small : value < 2 ^ 64)
    (size : Nat)
    (signed : Bool) :
    (Immediate.mk value size signed).toUnsigned64 = value := by
  rw [Immediate.toUnsigned64, twosComplement,
    Int.emod_eq_of_lt (Int.natCast_nonneg value) (by exact_mod_cast small),
    Int.toNat_natCast]

theorem wideMoveParts?_eq
    {constant : Nat}
    (small : constant < 2 ^ 16)
    (destination : Operand)
    (place : Nat) :
    wideMoveParts?
        ([destination, .unsigned constant 16] ++
          if place = 0 then [] else [.shift ⟨.lsl, 16 * place⟩]) =
      some (destination, constant, 16 * place) := by
  have value := @toUnsigned64_natCast constant (by omega) 16 false
  by_cases atBottom : place = 0
  · simp [atBottom, wideMoveParts?, Operand.unsigned, value]
  · simp [atBottom, wideMoveParts?, Operand.unsigned, value]

theorem movingWide_of_wideMove
    (gives : Format.Gives .wideMove operands)
    (reduces : wideMove operands = some reduced) :
    Meaning.movingWide reduced = some operands := by
  cases gives with
  | @wideMove wide destination constant place small inside =>
      rcases exists_of_wideMove reduces with
        ⟨_, _, _, parts, lowest, rfl⟩
      rw [wideMoveParts?_eq small] at parts
      cases parts
      have fits : constant * 2 ^ (16 * place) < 2 ^ 64 :=
        Nat.lt_of_lt_of_le (constant_mul_lt small inside)
          (Nat.pow_le_pow_right (by decide) (generalBits_le wide))
      rw [Nat.mod_eq_of_lt fits]
      simp only [Meaning.movingWide, Operand.unsigned,
        toUnsigned64_natCast fits]
      rw [wideParts_mul_two_pow small (by omega)]
      rfl

/-- The complement that is shown is that of the register's width. -/
theorem inverted_eq_bmod (wide : Bool) (constant place : Nat) :
    (if generalBits wide = 32 then
        Int.bmod (-1 - constant * 2 ^ place) (2 ^ 32)
      else
        wrapSigned64 (-1 - constant * 2 ^ place)) =
      Int.bmod (-1 - (constant * 2 ^ place : Nat))
        (2 ^ generalBits wide) := by
  cases wide <;> simp [generalBits, wrapSigned64]

theorem movingInverted_of_invertedMove
    (gives : Format.Gives .wideMove operands)
    (reduces : invertedMove operands = some reduced) :
    Meaning.movingInverted reduced = some operands := by
  cases gives with
  | @wideMove wide destination constant place small inside =>
      rcases exists_of_invertedMove reduces with
        ⟨_, _, _, parts, lowest, -, rfl⟩
      rw [wideMoveParts?_eq small] at parts
      cases parts
      rw [generalRegister_size]
      have fits := constant_mul_lt small inside
      have complement := twosComplement_complement fits
      rw [inverted_eq_bmod]
      simp only [Meaning.movingInverted, Operand.signed,
        generalRegister_size, complement]
      rw [wideParts_mul_two_pow small (by omega)]
      rfl

/-! ## Bitfield moves -/

theorem ofOperands?_bitfield
    {wide : Bool}
    {immr imms : Nat}
    (immrSmall : immr < generalBits wide)
    (immsSmall : imms < generalBits wide)
    (destination : Operand)
    (source : Register) :
    Bitfield.ofOperands?
        [destination, .register source, smallConstant immr,
          smallConstant imms] =
      some ⟨destination, source, immr, imms⟩ := by
  have bits := generalBits_le wide
  have first := @toUnsigned64_natCast immr (by omega) 6 false
  have second := @toUnsigned64_natCast imms (by omega) 6 false
  simp only [Bitfield.ofOperands?, smallConstant, Operand.unsigned, first,
    second]

/-- A bitfield move whose constants are below the width. -/
def Bitfield.Inside (field : Bitfield) : Prop :=
  field.source.size ≤ 64 ∧ field.immr < field.source.size ∧
    field.imms < field.source.size

/-- The operands of such a format are a bitfield move. -/
theorem Format.Gives.eq_of_ofOperands?
    (gives : Format.Gives .bitfield operands)
    {field : Bitfield}
    (found : Bitfield.ofOperands? operands = some field) :
    field.Inside ∧
      operands =
        [field.destination, .register field.source,
          smallConstant field.immr, smallConstant field.imms] := by
  cases gives with
  | bitfield wide destination source immrSmall immsSmall =>
      rw [ofOperands?_bitfield immrSmall immsSmall] at found
      cases found
      simp only [Bitfield.Inside, generalRegister_size]
      exact ⟨⟨generalBits_le wide, immrSmall, immsSmall⟩, trivial⟩

theorem extending_of_extension
    {condition : Register → Bool}
    {highest : Nat}
    (gives : Format.Gives .bitfield operands)
    (reduces : Bitfield.extension condition highest operands = some reduced) :
    Meaning.extending highest reduced = some operands := by
  rcases Bitfield.exists_of_extension reduces with
    ⟨field, found, noRotation, width, rfl⟩
  cases gives with
  | bitfield wide destination source immrSmall immsSmall =>
      rw [ofOperands?_bitfield immrSmall immsSmall] at found
      cases found
      simp only [Meaning.extending, generalRegister_size, ← noRotation,
        ← width]
      rw [← generalRegister_size false wide source]

theorem shifting_of_withConstants
    {condition : Bitfield → Bool}
    {amount : Bitfield → Nat}
    {constants : Nat → Nat → Nat × Nat}
    (inverse :
      ∀ field : Bitfield, field.Inside → condition field →
        amount field < 64 ∧
          constants field.source.size (amount field) =
            (field.immr, field.imms))
    (gives : Format.Gives .bitfield operands)
    (reduces :
      Bitfield.withConstants condition (fun field => [amount field])
        operands = some reduced) :
    Meaning.shifting constants reduced = some operands := by
  rcases Bitfield.exists_of_withConstants reduces with
    ⟨field, found, passed, rfl⟩
  rcases gives.eq_of_ofOperands? found with ⟨inside, rfl⟩
  rcases inverse field inside passed with ⟨small, same⟩
  have value := @toUnsigned64_natCast (amount field) (by omega) 6 false
  simp only [List.map_cons, List.map_nil, Meaning.shifting, smallConstant,
    Operand.unsigned, value, same]

theorem movingField_of_withConstants
    {condition : Bitfield → Bool}
    {lowest length : Bitfield → Nat}
    {constants : Nat → Nat → Nat → Nat × Nat}
    (inverse :
      ∀ field : Bitfield, field.Inside → condition field →
        lowest field ≤ 64 ∧ length field ≤ 64 ∧
          constants field.source.size (lowest field) (length field) =
            (field.immr, field.imms))
    (gives : Format.Gives .bitfield operands)
    (reduces :
      Bitfield.withConstants condition
        (fun field => [lowest field, length field]) operands =
        some reduced) :
    Meaning.movingField constants reduced = some operands := by
  rcases Bitfield.exists_of_withConstants reduces with
    ⟨field, found, passed, rfl⟩
  rcases gives.eq_of_ofOperands? found with ⟨inside, rfl⟩
  rcases inverse field inside passed with ⟨lowSmall, lengthSmall, same⟩
  have low := @toUnsigned64_natCast (lowest field) (by omega) 6 false
  have bits := @toUnsigned64_natCast (length field) (by omega) 6 false
  simp only [List.map_cons, List.map_nil, Meaning.movingField,
    smallConstant, Operand.unsigned, low, bits, same]

/-- The amount of a shift to the left tells both constants. -/
theorem shifting_of_shiftLeft
    (gives : Format.Gives .bitfield operands)
    (reduces : Bitfield.shiftLeft operands = some reduced) :
    Meaning.shifting Meaning.leftConstants reduced = some operands := by
  refine shifting_of_withConstants ?_ gives reduces
  intro field inside passed
  rcases inside with ⟨narrow, immrSmall, immsSmall⟩
  rw [Bool.and_eq_true, decide_eq_true_eq, decide_eq_true_eq] at passed
  rcases passed with ⟨notHighest, next⟩
  have missing :
      field.source.size - (field.source.size - 1 - field.imms) =
        field.immr := by
    omega
  refine ⟨by omega, ?_⟩
  rw [Meaning.leftConstants, missing, Nat.mod_eq_of_lt immrSmall]
  congr 1
  omega

/-- The amount of a shift to the right is one of the constants. -/
theorem shifting_of_shiftRight
    (gives : Format.Gives .bitfield operands)
    (reduces : Bitfield.shiftRight operands = some reduced) :
    Meaning.shifting Meaning.rightConstants reduced = some operands := by
  refine shifting_of_withConstants ?_ gives reduces
  intro field inside passed
  rcases inside with ⟨narrow, immrSmall, immsSmall⟩
  rw [decide_eq_true_eq] at passed
  refine ⟨by omega, ?_⟩
  rw [Meaning.rightConstants, passed]

theorem movingField_of_insertion
    (gives : Format.Gives .bitfield operands)
    (reduces : Bitfield.insertion operands = some reduced) :
    Meaning.movingField Meaning.insertionConstants reduced =
      some operands := by
  refine movingField_of_withConstants ?_ gives reduces
  intro field inside passed
  rcases inside with ⟨narrow, immrSmall, immsSmall⟩
  rw [decide_eq_true_eq] at passed
  have missing :
      field.source.size - (field.source.size - field.immr) = field.immr := by
    omega
  refine ⟨by omega, by omega, ?_⟩
  rw [Meaning.insertionConstants, missing, Nat.mod_eq_of_lt immrSmall,
    Nat.add_sub_cancel]

theorem movingField_of_extraction
    (gives : Format.Gives .bitfield operands)
    (reduces : Bitfield.extraction operands = some reduced) :
    Meaning.movingField Meaning.extractionConstants reduced =
      some operands := by
  refine movingField_of_withConstants ?_ gives reduces
  intro field inside passed
  rcases inside with ⟨narrow, immrSmall, immsSmall⟩
  rw [decide_eq_true_eq] at passed
  refine ⟨by omega, by omega, ?_⟩
  rw [Meaning.extractionConstants]
  congr 1
  omega

theorem rotating_of_rotation
    (gives : Format.Gives .extract operands)
    (reduces : rotation operands = some reduced) :
    Meaning.rotating reduced = some operands := by
  rcases exists_of_rotation reduces with
    ⟨destination, high, low, distance, agrees, rfl, rfl⟩
  cases gives
  rw [Operand.agrees_iff_of_kind_ne_float (by simp [Operand.kind])]
    at agrees
  rw [Meaning.rotating, agrees]

/-! ## Selections, branches and hints -/

theorem choosingZero_of_conditionalSet
    (gives : Format.Gives .select operands)
    (reduces : conditionalSet operands = some reduced) :
    Meaning.choosingZero reduced = some operands := by
  rcases exists_of_conditionalSet reduces with
    ⟨destination, first, second, condition, firstZero, secondZero, rfl, rfl⟩
  cases gives
  rw [Meaning.choosingZero, zeroBeside_eq firstZero,
    Condition.inverse_inverse, eq_zero_of_isZero firstZero,
    eq_zero_of_isZero secondZero]
  rfl

theorem choosingTwice_of_conditionalChange
    (gives : Format.Gives .select operands)
    (reduces : conditionalChange operands = some reduced) :
    Meaning.choosingTwice reduced = some operands := by
  rcases exists_of_conditionalChange reduces with
    ⟨destination, first, second, condition, agrees, rfl, rfl⟩
  cases gives
  rw [Operand.agrees_iff_of_kind_ne_float (by simp [Operand.kind])]
    at agrees
  rw [Meaning.choosingTwice, Condition.inverse_inverse, agrees]

/-- The register of a branch that has the link register's number. -/
theorem eq_returnAddress_of_isRegister
    {target : Operand}
    (gives : Format.Gives .branchRegister [target])
    (link : target.isRegister linkRegister) :
    target = .register returnAddress := by
  cases gives with
  | branchRegister number =>
      simp only [Operand.isRegister, Operand.register?, Option.map_some,
        Option.some.injEq, decide_eq_true_eq, generalRegister,
        Bool.false_and] at link
      rw [show number = linkRegister from link]
      rfl

theorem throughLink_of_linkReturn
    (gives : Format.Gives .branchRegister operands)
    (reduces : linkReturn operands = some reduced) :
    Meaning.throughLink reduced = some operands := by
  rcases exists_of_linkReturn reduces with ⟨target, link, rfl, rfl⟩
  rw [Meaning.throughLink, eq_returnAddress_of_isRegister gives link]

theorem hinting_of_hintOf
    {code : Nat}
    (gives : Format.Gives .hint operands)
    (reduces : hintOf code operands = some reduced) :
    Meaning.hinting code reduced = some operands := by
  rcases exists_of_hintOf reduces with ⟨operand, constant, rfl, rfl⟩
  cases gives with
  | hint given =>
      simp only [Operand.isConstant, Operand.unsigned,
        Operand.immediateValue?, Option.some.injEq, decide_eq_true_eq,
        Int.natCast_inj] at constant
      rw [Meaning.hinting, constant]

/-! ## All preferred forms -/

/--
Whether the definition of the preferred form gives back what the rule has
taken from operands of the opcode's format.
-/
def Undone (rule : Alias) : Prop :=
  ∃ (base shown : Opcode) (format : Format)
      (restore : List Operand → Option (List Operand)),
    rule.opcode = base.id ∧ rule.preferred = shown.id ∧
      base.format? = some format ∧
      shown.meaning? = some ⟨base, restore⟩ ∧
      ∀ {operands reduced : List Operand},
        format.Gives operands → rule.reduce operands = some reduced →
          restore reduced = some operands

section Rules

variable
  {base shown : Opcode}
  {reduce restore : List Operand → Option (List Operand)}
  (known : base.format? = some format)
include known

theorem undone_preferred
    (defined : shown.meaning? = some ⟨base, restore⟩)
    (restores :
      ∀ {operands reduced : List Operand},
        format.Gives operands → reduce operands = some reduced →
          restore reduced = some operands) :
    Undone (preferred base shown reduce) :=
  ⟨base, shown, format, restore, rfl, rfl, known, defined, restores⟩

theorem undone_withoutDestination
    (several : format ∉ [.wideMove, .branchRegister, .hint])
    (defined : shown.meaning? = some ⟨base, Meaning.intoZero⟩) :
    Undone (preferred base shown withoutDestination) :=
  undone_preferred known defined fun gives reduces =>
    intoZero_of_withoutDestination gives several reduces

/-- The rules that leave out a first source that is zero. -/
theorem undone_fromZero
    (several : format ∉ [.wideMove, .branchRegister, .hint])
    (defined : shown.meaning? = some ⟨base, Meaning.fromZero⟩)
    (leavesOut :
      ∀ {operands reduced : List Operand},
        reduce operands = some reduced →
          withoutFirstSource operands = some reduced) :
    Undone (preferred base shown reduce) :=
  undone_preferred known defined fun gives reduces =>
    fromZero_of_withoutFirstSource gives several (leavesOut reduces)

end Rules

theorem undone_hintOf
    {shown : Opcode}
    (code : Nat)
    (defined : shown.meaning? = some ⟨.hint, Meaning.hinting code⟩) :
    Undone (preferred .hint shown (hintOf code)) :=
  undone_preferred rfl defined hinting_of_hintOf

/-- A shift by a register is only given another name. -/
theorem undone_some
    {base shown : Opcode}
    (known : base.format? = some .twoSources)
    (defined : shown.meaning? = some ⟨base, some⟩) :
    Undone (preferred base shown some) :=
  undone_preferred known defined fun _ same => same.symm

theorem undone_of_mem : ∀ rule ∈ preferredForms, Undone rule := by
  simp only [preferredForms, List.forall_mem_cons]
  exact
    ⟨undone_preferred rfl rfl addingZero_of_stackMove,
      undone_withoutDestination rfl (by decide) rfl,
      undone_withoutDestination rfl (by decide) rfl,
      undone_withoutDestination rfl (by decide) rfl,
      undone_fromZero rfl (by decide) rfl withoutFirstSource_of_logicalMove,
      undone_preferred rfl rfl movingWide_of_wideMove,
      undone_preferred rfl rfl movingInverted_of_invertedMove,
      undone_preferred rfl rfl extending_of_extension,
      undone_preferred rfl rfl extending_of_extension,
      undone_preferred rfl rfl extending_of_extension,
      undone_preferred rfl rfl shifting_of_shiftRight,
      undone_preferred rfl rfl movingField_of_insertion,
      undone_preferred rfl rfl movingField_of_extraction,
      undone_preferred rfl rfl extending_of_extension,
      undone_preferred rfl rfl extending_of_extension,
      undone_preferred rfl rfl shifting_of_shiftLeft,
      undone_preferred rfl rfl shifting_of_shiftRight,
      undone_preferred rfl rfl movingField_of_insertion,
      undone_preferred rfl rfl movingField_of_extraction,
      undone_preferred rfl rfl movingField_of_insertion,
      undone_preferred rfl rfl movingField_of_extraction,
      undone_preferred rfl rfl rotating_of_rotation,
      undone_preferred rfl rfl throughLink_of_linkReturn,
      undone_hintOf 0 rfl,
      undone_hintOf 1 rfl,
      undone_hintOf 2 rfl,
      undone_hintOf 3 rfl,
      undone_hintOf 4 rfl,
      undone_hintOf 5 rfl,
      undone_fromZero rfl (by decide) rfl withoutFirstSource_of_registerMove,
      undone_fromZero rfl (by decide) rfl id,
      undone_withoutDestination rfl (by decide) rfl,
      undone_withoutDestination rfl (by decide) rfl,
      undone_withoutDestination rfl (by decide) rfl,
      undone_fromZero rfl (by decide) rfl id,
      undone_fromZero rfl (by decide) rfl id,
      undone_preferred rfl rfl choosingZero_of_conditionalSet,
      undone_preferred rfl rfl choosingTwice_of_conditionalChange,
      undone_preferred rfl rfl choosingZero_of_conditionalSet,
      undone_preferred rfl rfl choosingTwice_of_conditionalChange,
      undone_preferred rfl rfl choosingTwice_of_conditionalChange,
      undone_preferred rfl rfl withZero_of_withoutAddend,
      undone_preferred rfl rfl withZero_of_withoutAddend,
      undone_some rfl rfl,
      undone_some rfl rfl,
      undone_some rfl rfl,
      undone_some rfl rfl,
      by simp⟩

/--
What has been decoded from a word of four bytes is the expansion of its
preferred form, whenever that is another form.
-/
theorem expand?_preferredForm
    {word : Word}
    (four : word.size = 4)
    {features : Features}
    {raw : RawInstruction}
    (decoded : isa.run table word features = .ok raw)
    (rewritten : Alias.canonicalize isa.aliases raw.form ≠ raw.form) :
    expand? (Alias.canonicalize isa.aliases raw.form) = some raw.form := by
  rcases Alias.exists_of_canonicalize_ne rewritten with
    ⟨rule, member, reduced, same, reduces, result⟩
  rcases undone_of_mem rule member with
    ⟨base, shown, format, restore, isBase, isShown, known, defined,
      restores⟩
  have baseFound : base.id = raw.opcode := isBase.symm.trans same
  have gives := gives_of_run four decoded baseFound known
  have restored := restores gives reduces
  rw [result, expand?, isShown]
  simp only [Opcode.ofId?_id, defined, restored, Option.bind_eq_bind,
    Option.bind_some, Option.pure_def, baseFound]
  rfl

/-- A word of `lsl x0, x1, #4`. -/
def lslWord : Word :=
  ⟨[0x20, 0xec, 0x7c, 0xd3], 0x1000, 0xd37cec20, by simp, by decide⟩

/-- A shift to the left by four is expanded to the move of a bitfield. -/
theorem expand?_preferredForm_lsl :
    isa.run table lslWord .empty =
        .ok
          { opcode := Opcode.ubfm.id
            operands :=
              [.register (generalRegister false true 0),
                .register (generalRegister false true 1),
                smallConstant 60, smallConstant 59]
            status := .success
            specifics := .arm64 {} } ∧
      expand?
          ⟨Opcode.lslImmediate.id,
            [.register (generalRegister false true 0),
              .register (generalRegister false true 1),
              smallConstant 4]⟩ =
        some
          ⟨Opcode.ubfm.id,
            [.register (generalRegister false true 0),
              .register (generalRegister false true 1),
              smallConstant 60, smallConstant 59]⟩ := by
  have decoded :
      isa.run table lslWord .empty =
        .ok
          { opcode := Opcode.ubfm.id
            operands :=
              [.register (generalRegister false true 0),
                .register (generalRegister false true 1),
                smallConstant 60, smallConstant 59]
            status := .success
            specifics := .arm64 {} } := by
    rfl
  exact ⟨decoded, expand?_preferredForm rfl decoded (by decide +kernel)⟩

end MachineCode.Arm64
