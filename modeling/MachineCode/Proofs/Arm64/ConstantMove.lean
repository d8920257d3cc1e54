import MachineCode.Proofs.Arm64.Lossless
import MachineCode.Proofs.Arm64.WideConstant
import MachineCode.Proofs.PreferredTouch

/-!
# Moves of constants

Three instructions are shown as moves of a constant: a wide move, a wide move
with complement, and the combination of a pattern with the zero register. The
last one is shown so only if no wide move builds the pattern, and of several
wide moves with one result only one is shown so. The move that is shown
therefore tells the instruction (`shownConstant?_tells`), but for the
complements that the test for wide moves misses (`shownConstant?_upperOnes`).
-/

namespace MachineCode.Arm64

/-! ## Moves of constants and what is shown of them -/

/-- The constant that a form with one source moves. -/
def movedConstant? : List Operand → Option Int
  | [_, .immediate constant] => some constant.value
  | _ => none

/-- The constant of a form whose preferred form is a move of a constant. -/
def shownConstant? (form : Form) : Option Int :=
  let shown := Alias.canonicalize isa.aliases form
  if (isa.info? shown.opcode).map OpcodeInfo.mnemonic = some "mov" then
    movedConstant? shown.operands
  else
    none

/--
Whether a wide move builds a value, or the complement of a constant that is a
multiple of four.
-/
def IsBuiltWide (width value : Nat) : Prop :=
  ∃ constant place,
    constant < 2 ^ 16 ∧ 16 * place < width ∧
      (value = constant * 2 ^ (16 * place) ∨
        4 ∣ constant ∧ value = 2 ^ width - 1 - constant * 2 ^ (16 * place))

/-- The instructions that can be shown as moves of constants. -/
inductive ConstantMove where
  | wide
  | inverted
  /-- A pattern that is combined with the zero register. -/
  | logical
deriving DecidableEq, Repr

namespace ConstantMove

/-- The opcode that is decoded. -/
def base : ConstantMove → Opcode
  | wide => .movz
  | inverted => .movn
  | logical => .orrImmediate

/-- The opcode of the preferred form. -/
def shown : ConstantMove → Opcode
  | wide => .movWide
  | inverted => .movInverted
  | logical => .movLogical

/-- The operands of the preferred form, if it applies. -/
def reduce : ConstantMove → List Operand → Option (List Operand)
  | wide => wideMove
  | inverted => invertedMove
  | logical => logicalMove

theorem canonicalize_base (move : ConstantMove) (operands : List Operand) :
    Alias.canonicalize isa.aliases ⟨move.base.id, operands⟩ =
      match move.reduce operands with
      | some reduced => ⟨move.shown.id, reduced⟩
      | none => ⟨move.base.id, operands⟩ := by
  have own :
      (preferredForms.filter fun rule => rule.opcode = move.base.id) =
        [preferred move.base move.shown move.reduce] := by
    cases move <;> rfl
  change Alias.canonicalize preferredForms _ = _
  rw [← Alias.canonicalize_filter, own]
  cases reduces : move.reduce operands <;>
    simp [Alias.canonicalize, Alias.form?, preferred, reduces]

/-- A constant is shown if the rule for the opcode applies. -/
theorem shownConstant?_base (move : ConstantMove) (operands : List Operand) :
    shownConstant? ⟨move.base.id, operands⟩ =
      (move.reduce operands).bind movedConstant? := by
  have isMove :
      (isa.info? move.shown.id).map OpcodeInfo.mnemonic = some "mov" := by
    cases move <;> rfl
  have noMove :
      (isa.info? move.base.id).map OpcodeInfo.mnemonic ≠ some "mov" := by
    cases move <;> decide
  rw [shownConstant?, canonicalize_base]
  cases move.reduce operands with
  | none => simp [noMove]
  | some reduced => simp [isMove]

end ConstantMove

/-! ## The operands of moves -/

/-- The operands of a wide move. -/
def wideOperands (wide : Bool) (destination constant place : Nat) :
    List Operand :=
  [.register (generalRegister false wide destination),
    .unsigned constant 16] ++
    if place = 0 then [] else [.shift ⟨.lsl, 16 * place⟩]

/-- The operands of a pattern that is combined with the zero register. -/
def patternOperands (wide : Bool) (destination value : Nat) :
    List Operand :=
  [.register (generalRegister true wide destination),
    .register (generalRegister false wide zeroRegister),
    .unsigned value (generalBits wide)]

/--
A move that is shown as the move of a constant, by the sixteen bits of its
word, its operands and the value that it builds.
-/
inductive Builds (wide : Bool) (destination field : Nat) :
    ConstantMove → List Operand → Nat → Prop where
  | wide {place : Nat}
      (inside : 16 * place < generalBits wide)
      (lowest : field = 0 → place = 0) :
      Builds wide destination field .wide
        (wideOperands wide destination field place)
        (field * 2 ^ (16 * place))
  | inverted {place : Nat}
      (inside : 16 * place < generalBits wide)
      (lowest : field = 0 → place = 0)
      (notNarrow : ¬(generalBits wide = 32 ∧ field = 0xffff)) :
      Builds wide destination field .inverted
        (wideOperands wide destination field place)
        (2 ^ generalBits wide - 1 - field * 2 ^ (16 * place))
  | logical {value : Nat}
      (unbuilt : ¬IsBuiltWide (generalBits wide) value) :
      Builds wide destination field .logical
        (patternOperands wide destination value) value

/-- A wide move is told by the value that it builds. -/
theorem wideOperands_eq_of_value_eq
    {constant place otherConstant otherPlace : Nat}
    (small : constant < 2 ^ 16)
    (otherSmall : otherConstant < 2 ^ 16)
    (lowest : constant = 0 → place = 0)
    (otherLowest : otherConstant = 0 → otherPlace = 0)
    (same :
      constant * 2 ^ (16 * place) = otherConstant * 2 ^ (16 * otherPlace))
    (wide : Bool)
    (destination : Nat) :
    wideOperands wide destination constant place =
      wideOperands wide destination otherConstant otherPlace := by
  have parts := wideParts_mul_two_pow small lowest
  rw [same, wideParts_mul_two_pow otherSmall otherLowest] at parts
  exact congrArg (List.cons _) parts.symm

/--
The complement of sixteen bits at a multiple of sixteen has ones in other
places, unless it is the half of a narrow register.
-/
theorem wide_ne_inverted
    {wide : Bool}
    {constant place otherConstant otherPlace : Nat}
    (small : constant < 2 ^ 16)
    (otherSmall : otherConstant < 2 ^ 16)
    (inside : 16 * place < generalBits wide)
    (otherInside : 16 * otherPlace < generalBits wide)
    (notNarrow : ¬(generalBits wide = 32 ∧ otherConstant = 0xffff)) :
    constant * 2 ^ (16 * place) ≠
      2 ^ generalBits wide - 1 - otherConstant * 2 ^ (16 * otherPlace) := by
  cases wide with
  | false =>
      change 16 * place < 32 at inside
      change 16 * otherPlace < 32 at otherInside
      change _ ≠ 2 ^ 32 - 1 - _
      have notFull : otherConstant ≠ 0xffff := fun full => notNarrow ⟨rfl, full⟩
      obtain rfl | rfl : place = 0 ∨ place = 1 := by omega
      all_goals
        obtain rfl | rfl : otherPlace = 0 ∨ otherPlace = 1 := by omega
        all_goals omega
  | true =>
      change 16 * place < 64 at inside
      change 16 * otherPlace < 64 at otherInside
      change _ ≠ 2 ^ 64 - 1 - _
      obtain rfl | rfl | rfl | rfl :
          place = 0 ∨ place = 1 ∨ place = 2 ∨ place = 3 := by
        omega
      all_goals
        obtain rfl | rfl | rfl | rfl :
            otherPlace = 0 ∨ otherPlace = 1 ∨ otherPlace = 2 ∨
              otherPlace = 3 := by
          omega
        all_goals omega

/-- A wide move puts sixteen bits, or the zeros, at a multiple of sixteen. -/
theorem fitsHalfword_or_iff
    {wide : Bool}
    {value : Nat}
    (small : value < 2 ^ generalBits wide) :
    FitsHalfword 0 (generalBits wide) value ∨
        FitsHalfword 2 (generalBits wide)
          (2 ^ generalBits wide - 1 - value) ↔
      IsBuiltWide (generalBits wide) value := by
  constructor
  · rintro (⟨constant, place, bits, -, inside, isValue⟩ |
      ⟨constant, place, bits, found, inside, isValue⟩)
    · exact ⟨constant, place, bits, inside, .inl isValue⟩
    · exact ⟨constant, place, bits, inside, .inr ⟨found, by omega⟩⟩
  · rintro ⟨constant, place, bits, inside, isValue | ⟨found, isValue⟩⟩
    · exact .inl ⟨constant, place, bits, one_dvd _, inside, isValue⟩
    · have fits := constant_mul_lt bits inside
      exact .inr ⟨constant, place, bits, found, inside, by omega⟩

/-- The complement of a multiple of four is built by a wide move. -/
theorem isBuiltWide_of_inverted
    {width constant place : Nat}
    (small : constant < 2 ^ 16)
    (inside : 16 * place < width)
    (found : 4 ∣ constant) :
    IsBuiltWide width (2 ^ width - 1 - constant * 2 ^ (16 * place)) :=
  ⟨constant, place, small, inside, .inr ⟨found, rfl⟩⟩

/--
Moves that build the same value are the same, but for a pattern and the
complement of a constant that is no multiple of four.
-/
theorem Builds.eq
    {wide : Bool}
    {destination field otherField value otherValue : Nat}
    {move other : ConstantMove}
    {operands otherOperands : List Operand}
    (small : field < 2 ^ 16)
    (otherSmall : otherField < 2 ^ 16)
    (left : Builds wide destination field move operands value)
    (right :
      Builds wide destination otherField other otherOperands otherValue)
    (same : value = otherValue)
    (leftFound : move = .inverted → other = .logical → 4 ∣ field)
    (rightFound : other = .inverted → move = .logical → 4 ∣ otherField) :
    move = other ∧ operands = otherOperands := by
  cases left with
  | wide inside lowest =>
      cases right with
      | wide _ otherLowest =>
          exact ⟨rfl, wideOperands_eq_of_value_eq small otherSmall lowest
            otherLowest same _ _⟩
      | inverted otherInside _ notNarrow =>
          exact absurd same (wide_ne_inverted small otherSmall inside
            otherInside notNarrow)
      | logical unbuilt =>
          exact absurd ⟨_, _, small, inside, .inl same.symm⟩ unbuilt
  | inverted inside lowest notNarrow =>
      cases right with
      | wide otherInside =>
          exact absurd same.symm (wide_ne_inverted otherSmall small
            otherInside inside notNarrow)
      | @inverted otherPlace otherInside otherLowest =>
          have fits := constant_mul_lt small inside
          have otherFits := constant_mul_lt otherSmall otherInside
          exact ⟨rfl, wideOperands_eq_of_value_eq small otherSmall lowest
            otherLowest (by omega) _ _⟩
      | logical unbuilt =>
          have built :=
            isBuiltWide_of_inverted small inside (leftFound rfl rfl)
          exact absurd (same ▸ built) unbuilt
  | logical unbuilt =>
      cases right with
      | wide otherInside =>
          exact absurd ⟨_, _, otherSmall, otherInside, .inl same⟩ unbuilt
      | inverted otherInside =>
          have built :=
            isBuiltWide_of_inverted otherSmall otherInside
              (rightFound rfl rfl)
          exact absurd (same ▸ built) unbuilt
      | logical => exact ⟨rfl, same ▸ rfl⟩

/-- The test for wide moves, of an encoded pattern. -/
theorem isWideMove_iff_of_ofFields?
    {n immr imms : Nat}
    {pattern : BitPattern}
    (encoded : BitPattern.ofFields? n immr imms = some pattern)
    {wide : Bool}
    (fits : pattern.period ≤ generalBits wide) :
    pattern.value (generalBits wide) < 2 ^ generalBits wide ∧
      (isWideMove (generalBits wide) (pattern.value (generalBits wide)) ↔
        IsBuiltWide (generalBits wide)
          (pattern.value (generalBits wide))) := by
  have proper := BitPattern.proper_of_ofFields? encoded
  obtain ⟨logarithm, sixteen, width⟩ :
      ∃ logarithm, 4 ≤ logarithm ∧
        generalBits wide = 2 * 2 ^ logarithm := by
    cases wide with
    | false => exact ⟨4, by decide, rfl⟩
    | true => exact ⟨5, by decide, rfl⟩
  have shape := BitPattern.period_eq_or_dvd encoded (width ▸ fits)
  have divides : pattern.period ∣ generalBits wide := by
    rw [width]
    exact shape.elim Eq.dvd (Dvd.dvd.mul_left · 2)
  have small := proper.value_lt divides
  refine ⟨small, ?_⟩
  have tested :=
    BitPattern.isWideMove_value_iff proper (Nat.two_pow_pos logarithm)
      (Nat.pow_dvd_pow 2 sixteen) shape
  rw [← width] at tested
  rw [tested]
  exact fitsHalfword_or_iff small

/-! ## Moves that have been decoded -/

/-- Whether a path, if it ends with an opcode, has tested a field. -/
def tests (opcode : Opcode) (start length value : Nat) (path : Path) :
    Bool :=
  match path.ending with
  | .decode number _ _ _ =>
    number ≠ opcode.id ||
      (Path.knownBy path.guards).verdict start length value = some true
  | .fail => true

/-- A field that all paths to an opcode test has the value they test for. -/
theorem field_of_run
    {opcode : Opcode}
    {start length value : Nat}
    (tested :
      ∀ path ∈ program.paths, tests opcode start length value path)
    {word : Word}
    (four : word.size = 4)
    {features : Features}
    {raw : RawInstruction}
    (decoded : isa.run table word features = .ok raw)
    (same : raw.opcode = opcode.id) :
    bitField word.value start length = value := by
  have evaluates :=
    isa.run_toTable_of_validate features validate_table
      (show word.width = 32 by rw [Word.width, four])
  rw [table, evaluates] at decoded
  rcases Program.exists_path_of_eval decoded with
    ⟨path, member, holds, number, format, zeros, ones, ending, finished⟩
  rcases Isa.exists_reading_of_finishDecode finished with
    ⟨result, read, rfl, operands, -⟩
  have onPath := tested path member
  rw [tests, ending] at onPath
  simp only [same, ne_eq, not_true_eq_false, decide_false, Bool.false_or,
    decide_eq_true_eq] at onPath
  have holdsHere := (Path.agrees_knownBy holds).verdict onPath
  rwa [decide_eq_true_eq] at holdsHere

set_option maxRecDepth 20000 in
theorem tests_operation :
    ∀ path ∈ program.paths, tests .orrImmediate 29 2 1 path := by
  decide

/-- The destination of a combination with a pattern may be the stack pointer. -/
theorem operation_of_run
    {word : Word}
    (four : word.size = 4)
    {features : Features}
    {raw : RawInstruction}
    (decoded : isa.run table word features = .ok raw)
    (isPattern : raw.opcode = Opcode.orrImmediate.id) :
    bitField word.value 29 2 = 1 :=
  field_of_run tests_operation four decoded isPattern

namespace ConstantMove

/-- Whether a word decodes to an instruction that may be shown as a move. -/
structure Decodes
    (move : ConstantMove)
    (options : Options)
    (word : Word)
    (raw : RawInstruction) :
    Prop where
  decoded : Engine.decodeRaw ⟨isa, options⟩ word = .ok raw
  opcode_eq : raw.opcode = move.base.id
  fromZero : move = .logical → bitField word.value 5 5 = zeroRegister

section Decodes

variable
  {move : ConstantMove}
  {options : Options}
  {word : Word}
  {raw : RawInstruction}
  (decodes : move.Decodes options word raw)
include decodes

theorem Decodes.form_eq : raw.form = ⟨move.base.id, raw.operands⟩ := by
  rw [RawInstruction.form, decodes.opcode_eq]

/-- A wide move has its constant and its place in two fields. -/
theorem Decodes.operands_of_ne_logical (isWide : move ≠ .logical) :
    16 * bitField word.value 21 2 < generalBits (word.value.testBit 31) ∧
      raw.operands =
        wideOperands (word.value.testBit 31) (bitField word.value 0 5)
          (bitField word.value 5 16) (bitField word.value 21 2) := by
  rcases Engine.run_of_decodeRaw (fun _ => rfl) decodes.decoded with
    ⟨four, ran⟩
  have known : move.base.format? = some .wideMove := by
    cases move with
    | wide | inverted => rfl
    | logical => exact absurd rfl isWide
  rcases exists_read_of_run ran decodes.opcode_eq.symm known with
    ⟨result, read, operands⟩
  rcases eq_of_readWideMove four read with ⟨narrow, rfl⟩
  refine ⟨?_, operands⟩
  have place := bitField_lt word.value 21 2
  cases wide : word.value.testBit 31 with
  | false =>
      have := narrow wide
      show 16 * _ < 32
      omega
  | true =>
      show 16 * _ < 64
      omega

end Decodes

/-- The value of a combination, and the test for wide moves on it. -/
theorem Decodes.exists_value
    {options : Options}
    {word : Word}
    {raw : RawInstruction}
    (decodes : logical.Decodes options word raw) :
    ∃ value < 2 ^ generalBits (word.value.testBit 31),
      raw.operands =
          patternOperands (word.value.testBit 31) (bitField word.value 0 5)
            value ∧
        (isWideMove (generalBits (word.value.testBit 31)) value ↔
          IsBuiltWide (generalBits (word.value.testBit 31)) value) := by
  rcases Engine.run_of_decodeRaw (fun _ => rfl) decodes.decoded with
    ⟨four, ran⟩
  rcases exists_read_of_run ran decodes.opcode_eq.symm rfl with
    ⟨result, read, operands⟩
  rcases exists_pattern_of_readLogicalConstant four read with
    ⟨pattern, encoded, fits, -, rfl⟩
  rw [operation_of_run four ran decodes.opcode_eq, decodes.fromZero rfl]
    at operands
  rcases isWideMove_iff_of_ofFields? encoded fits with ⟨small, built⟩
  exact ⟨_, small, operands, built⟩

/-- A combination is shown as a move unless a wide move builds its value. -/
theorem reduce_patternOperands
    {wide : Bool}
    {value : Nat}
    (small : value < 2 ^ generalBits wide)
    (destination : Nat) :
    logical.reduce (patternOperands wide destination value) =
      if isWideMove (generalBits wide) value then
        none
      else
        some
          [.register (generalRegister true wide destination),
            .unsigned value (generalBits wide)] := by
  have fits : value < 2 ^ 64 :=
    Nat.lt_of_lt_of_le small
      (Nat.pow_le_pow_right (by decide) (generalBits_le wide))
  have isData :
      isZero (.register (generalRegister false wide zeroRegister)) := by
    cases wide <;> rfl
  rw [reduce, patternOperands, Operand.unsigned, logicalMove,
    toUnsigned64_natCast fits, isData, Bool.true_and]
  cases isWideMove (generalBits wide) value <;> rfl

variable
  {move : ConstantMove}
  {options : Options}
  {word : Word}
  {raw : RawInstruction}

/-- The constant that is shown is the value that is built. -/
theorem Decodes.exists_builds
    (decodes : move.Decodes options word raw)
    {constant : Int}
    (shown : shownConstant? raw.form = some constant) :
    ∃ value : Nat,
      constant % 2 ^ generalBits (word.value.testBit 31) = value ∧
        Builds (word.value.testBit 31) (bitField word.value 0 5)
          (bitField word.value 5 16) move raw.operands value := by
  have small := bitField_lt word.value 5 16
  have larger : 2 ^ generalBits (word.value.testBit 31) ≤ 2 ^ 64 :=
    Nat.pow_le_pow_right (by decide) (generalBits_le _)
  rw [decodes.form_eq, shownConstant?_base, Option.bind_eq_some_iff]
    at shown
  rcases shown with ⟨reduced, reduces, isConstant⟩
  cases move with
  | wide =>
      rcases decodes.operands_of_ne_logical (by decide) with
        ⟨inside, operands⟩
      rw [operands] at reduces ⊢
      rcases exists_of_wideMove reduces with ⟨_, _, _, parts, lowest, rfl⟩
      rw [wideOperands, wideMoveParts?_eq small] at parts
      cases parts
      cases isConstant
      have fits := constant_mul_lt small inside
      refine ⟨_, ?_, .wide inside (by omega)⟩
      rw [Nat.mod_eq_of_lt (Nat.lt_of_lt_of_le fits larger)]
      exact natCast_emod_two_pow fits
  | inverted =>
      rcases decodes.operands_of_ne_logical (by decide) with
        ⟨inside, operands⟩
      rw [operands] at reduces ⊢
      rcases exists_of_invertedMove reduces with
        ⟨_, _, _, parts, lowest, notNarrow, rfl⟩
      rw [wideOperands, wideMoveParts?_eq small] at parts
      cases parts
      cases isConstant
      rw [generalRegister_size] at notNarrow
      refine ⟨_, ?_, .inverted inside (by omega) notNarrow⟩
      rw [generalRegister_size, inverted_eq_bmod]
      exact bmod_complement_emod (constant_mul_lt small inside)
  | logical =>
      rcases decodes.exists_value with ⟨value, fits, operands, built⟩
      rw [operands] at reduces ⊢
      rw [reduce_patternOperands fits, Option.ite_none_left_eq_some,
        Option.some.injEq] at reduces
      rcases reduces with ⟨unbuilt, rfl⟩
      cases isConstant
      refine ⟨value, ?_, .logical (built.not.mp unbuilt)⟩
      exact natCast_emod_two_pow fits

/-- A combination is shown as a move if no wide move builds its value. -/
theorem Decodes.exists_shown_iff
    (decodes : logical.Decodes options word raw) :
    ∃ value < 2 ^ generalBits (word.value.testBit 31),
      raw.operands =
          patternOperands (word.value.testBit 31) (bitField word.value 0 5)
            value ∧
        ((shownConstant? raw.form).isSome ↔
          ¬IsBuiltWide (generalBits (word.value.testBit 31)) value) := by
  rcases decodes.exists_value with ⟨value, fits, operands, built⟩
  refine ⟨value, fits, operands, ?_⟩
  rw [decodes.form_eq, shownConstant?_base, operands,
    reduce_patternOperands fits, ← built]
  cases isWideMove (generalBits (word.value.testBit 31)) value <;>
    simp [movedConstant?, Operand.unsigned]

end ConstantMove

/--
A pattern that is combined with the zero register is shown as a move if and
only if no wide move builds it, where complements count for constants that are
multiples of four. Moves of one constant to one register are the same
instruction, unless one is the complement of another constant and the other a
pattern.
-/
theorem shownConstant?_tells
    {options : Options}
    {word : Word}
    {raw : RawInstruction}
    {move : ConstantMove}
    (decodes : move.Decodes options word raw) :
    let wide := word.value.testBit 31
    let width := generalBits wide
    (move = .logical →
      ∃ value < 2 ^ width,
        raw.operands =
            patternOperands wide (bitField word.value 0 5) value ∧
          ((shownConstant? raw.form).isSome ↔ ¬IsBuiltWide width value)) ∧
      ∀ {otherOptions : Options} {otherWord : Word}
        {otherRaw : RawInstruction} {other : ConstantMove}
        {constant otherConstant : Int},
        other.Decodes otherOptions otherWord otherRaw →
          SameField word.value otherWord.value (0, 5) →
          wide = otherWord.value.testBit 31 →
          shownConstant? raw.form = some constant →
          shownConstant? otherRaw.form = some otherConstant →
          constant % 2 ^ width = otherConstant % 2 ^ width →
          (move = .inverted → other = .logical →
            4 ∣ bitField word.value 5 16) →
          (other = .inverted → move = .logical →
            4 ∣ bitField otherWord.value 5 16) →
          raw.opcode = otherRaw.opcode ∧
            raw.operands = otherRaw.operands := by
  intro wide width
  refine ⟨?_, ?_⟩
  · rintro rfl
    exact decodes.exists_shown_iff
  · intro otherOptions otherWord otherRaw other constant otherConstant
      otherDecodes sameRegister sameWidth shown otherShown same found
      otherFound
    rcases decodes.exists_builds shown with ⟨value, isValue, builds⟩
    rcases otherDecodes.exists_builds otherShown with
      ⟨otherValue, isOther, otherBuilds⟩
    have sameNumber :
        bitField otherWord.value 0 5 = bitField word.value 0 5 :=
      sameRegister.symm
    rw [← sameWidth] at isOther otherBuilds
    rw [sameNumber] at otherBuilds
    have sameValue : value = otherValue :=
      Int.ofNat.inj (isValue.symm.trans (same.trans isOther))
    rcases builds.eq (bitField_lt ..) (bitField_lt ..) otherBuilds sameValue
        found otherFound with
      ⟨rfl, sameOperands⟩
    exact ⟨decodes.opcode_eq.trans otherDecodes.opcode_eq.symm,
      sameOperands⟩

/-- A word of `orr x0, xzr, #0x5555555555555555`. -/
def evenPlacesWord : Word :=
  ⟨[0xe0, 0xf3, 0x00, 0xb2], 0x1000, 0xb200f3e0, by simp, by decide⟩

/-- The same word, with a rotation by a whole period. -/
def rotatedEvenPlacesWord : Word :=
  ⟨[0xe0, 0xf3, 0x02, 0xb2], 0x1000, 0xb202f3e0, by simp, by decide⟩

/-- What both words decode to. -/
def evenPlaces : RawInstruction where
  opcode := Opcode.orrImmediate.id
  operands := patternOperands true 0 0x5555555555555555
  status := .success
  specifics := .arm64 {}

set_option maxRecDepth 20000 in
/-- Two words that are shown as one move are words of one instruction. -/
theorem shownConstant?_tells_evenPlaces :
    ∃ raw otherRaw,
      ConstantMove.logical.Decodes {} evenPlacesWord raw ∧
        ConstantMove.logical.Decodes {} rotatedEvenPlacesWord otherRaw ∧
        shownConstant? raw.form = some 0x5555555555555555 ∧
        shownConstant? otherRaw.form = some 0x5555555555555555 ∧
        ¬IsBuiltWide 64 0x5555555555555555 ∧
        raw.opcode = otherRaw.opcode ∧
        raw.operands = otherRaw.operands := by
  have decodes :
      ConstantMove.logical.Decodes {} evenPlacesWord evenPlaces :=
    ⟨rfl, rfl, fun _ => rfl⟩
  have rotated :
      ConstantMove.logical.Decodes {} rotatedEvenPlacesWord evenPlaces :=
    ⟨rfl, rfl, fun _ => rfl⟩
  have shown :
      shownConstant? evenPlaces.form = some 0x5555555555555555 := by
    rfl
  rcases shownConstant?_tells decodes with ⟨shownIff, tells⟩
  have same :=
    tells rotated rfl rfl shown shown rfl (fun inverted => by cases inverted)
      (fun inverted => by cases inverted)
  rcases shownIff rfl with ⟨value, small, operands, isShown⟩
  -- The operands tell that this is the value.
  obtain rfl : value = 0x5555555555555555 := by
    simp only [evenPlaces, patternOperands, Operand.unsigned] at operands
    cases operands
    rfl
  exact ⟨evenPlaces, evenPlaces, decodes, rotated, shown, shown,
    isShown.mp (by rw [shown]; rfl), same⟩

/-- A word of `orr x0, xzr, #0xffffffffffff0000`. -/
def upperOnesWord : Word :=
  ⟨[0xe0, 0xbf, 0x70, 0xb2], 0x1000, 0xb270bfe0, by simp, by decide⟩

/-- What `upperOnesWord` decodes to. -/
def upperOnes : RawInstruction where
  opcode := Opcode.orrImmediate.id
  operands := patternOperands true 0 0xffffffffffff0000
  status := .success
  specifics := .arm64 {}

/-- A word of `movn x0, #0xffff`. -/
def invertedOnesWord : Word :=
  ⟨[0xe0, 0xff, 0x9f, 0x92], 0x1000, 0x929fffe0, by simp, by decide⟩

/-- What `invertedOnesWord` decodes to. -/
def invertedOnes : RawInstruction where
  opcode := Opcode.movn.id
  operands := wideOperands true 0 0xffff 0
  status := .success
  specifics := .arm64 {}

set_option maxRecDepth 20000 in
/-- A pattern and the complement of sixteen ones are shown as one move. -/
theorem shownConstant?_upperOnes :
    ConstantMove.logical.Decodes {} upperOnesWord upperOnes ∧
      ConstantMove.inverted.Decodes {} invertedOnesWord invertedOnes ∧
      SameField upperOnesWord.value invertedOnesWord.value (0, 5) ∧
      upperOnesWord.value.testBit 31 = invertedOnesWord.value.testBit 31 ∧
      0xffffffffffff0000 = 2 ^ 64 - 1 - 0xffff * 2 ^ (16 * 0) ∧
      shownConstant? upperOnes.form = some 0xffffffffffff0000 ∧
      shownConstant? invertedOnes.form = some (-0x10000) ∧
      (0xffffffffffff0000 : Int) % 2 ^ 64 = -0x10000 % 2 ^ 64 ∧
      upperOnes.opcode ≠ invertedOnes.opcode := by
  refine ⟨⟨rfl, rfl, fun _ => by decide⟩, ⟨rfl, rfl, fun _ => by decide⟩,
    rfl, rfl, by decide, by rfl, by rfl, by decide, by decide⟩

end MachineCode.Arm64
