import MachineCode.Proofs.Errors
import MachineCode.Proofs.MoreFeatures
import MachineCode.Proofs.RiscV.ShortTerms

/-!
# Reserved parcels and hints

Some parcels of 16 bits are reserved, and others are hints, which do nothing
that a processor has to do. The listings of the manual
(`reservedEncodings`, `hintEncodings`) give the fields that tell them. What is
reserved does not decode, a hint decodes with a soft failure, and every other
parcel of the three quadrants decodes in earnest
(`Compressed.status_of_parcel`).

The decode program and the listings are compared by cases of a few fields
(`questions`), quadrant by quadrant.
-/

namespace MachineCode

/-- An instruction has the status that was found with its operands. -/
theorem Engine.status_of_decodeWord
    {architecture : Architecture}
    {isa : Isa}
    (known : architecture.isa? = some isa)
    (options : Options)
    (word : Word)
    (wantDetail : Bool) :
    (Engine.decodeWord ⟨isa, options⟩ word wantDetail).toOption.map
        Decoded.status =
      statusOf? (Engine.decodeRaw ⟨isa, options⟩ word) := by
  rw [decodeWord]
  cases decoded : Engine.decodeRaw ⟨isa, options⟩ word with
  | error error => rfl
  | ok raw =>
      rcases Architecture.exists_detailOf? known decoded with
        ⟨detail, described⟩
      rcases Option.map_eq_some_iff.mp described with ⟨info, named, -⟩
      simp only [finishRaw, named]
      rfl

namespace RiscV.Compressed

/-! ## The listings -/

/-- The slots of arithmetic on two registers with the upper bit set. -/
def upperArithmetic (function : Nat) : List Guard :=
  inQuadrant 1 0b100 [.field 10 2 0b11, .field 12 1 1, .field 5 2 function]

/-- The right shifts, logical or arithmetic. -/
def rightShift (function : Nat) (others : List Guard) : List Guard :=
  inQuadrant 1 0b100 (.field 10 2 function :: others)

/-- What is reserved for both widths of registers. -/
def commonReserved : List (List Guard) :=
  [
    -- `c.addi4spn` with no distance
    inQuadrant 0 0b000 [.field 5 8 0],
    -- unassigned
    inQuadrant 0 0b100 [],
    -- `c.addi16sp` and `c.lui` with the constant zero
    inQuadrant 1 0b011 [.field 12 1 0, .field 2 5 0],
    upperArithmetic 0b10,
    upperArithmetic 0b11,
    -- `c.lwsp` to the zero register
    inQuadrant 2 0b010 [.field 7 5 0],
    -- `c.jr` to the zero register
    inQuadrant 2 0b100 [.field 12 1 0, .field 2 5 0, .field 7 5 0]]

/-- What is reserved for one width of registers. -/
def specialReserved : Xlen → List (List Guard)
  | .rv32 =>
    [
      -- `c.srli`, `c.srai` and `c.slli` by more than 31
      rightShift 0b00 [.field 12 1 1],
      rightShift 0b01 [.field 12 1 1],
      inQuadrant 2 0b000 [.field 12 1 1],
      -- the slots of `c.subw` and `c.addw`
      upperArithmetic 0b00,
      upperArithmetic 0b01]
  | .rv64 =>
    [
      -- `c.addiw` and `c.ldsp` to the zero register
      inQuadrant 1 0b001 [.field 7 5 0],
      inQuadrant 2 0b011 [.field 7 5 0]]

/-- The reserved parcels. -/
def reservedEncodings (xlen : Xlen) : List (List Guard) :=
  commonReserved ++ specialReserved xlen

/-- The hints, some of which are reserved for one width of registers. -/
def hintEncodings : List (List Guard) :=
  [
    -- `c.nop` with a constant other than zero
    inQuadrant 1 0b000 [.field 7 5 0, .otherField 12 1 0],
    inQuadrant 1 0b000 [.field 7 5 0, .otherField 2 5 0],
    -- `c.addi` of the constant zero
    inQuadrant 1 0b000 [.otherField 7 5 0, .field 12 1 0, .field 2 5 0],
    -- `c.li` and `c.lui` to the zero register
    inQuadrant 1 0b010 [.field 7 5 0],
    inQuadrant 1 0b011 [.field 7 5 0],
    -- `c.srli`, `c.srai` and `c.slli` by zero
    rightShift 0b00 [.field 12 1 0, .field 2 5 0],
    rightShift 0b01 [.field 12 1 0, .field 2 5 0],
    inQuadrant 2 0b000 [.field 12 1 0, .field 2 5 0],
    -- `c.slli`, `c.mv` and `c.add` to the zero register
    inQuadrant 2 0b000 [.field 7 5 0],
    inQuadrant 2 0b100 [.field 12 1 0, .otherField 2 5 0, .field 7 5 0],
    inQuadrant 2 0b100 [.field 12 1 1, .otherField 2 5 0, .field 7 5 0]]

/-- Whether one of some encodings has a parcel. -/
def isListed (encodings : List (List Guard)) (parcel : Nat) : Bool :=
  Guard.holdAny (fun _ => false) parcel encodings

/-- The status that a parcel is to have, if it is to decode. -/
def listedStatus? (xlen : Xlen) (parcel : Nat) : Option DecodeStatus :=
  if isListed (reservedEncodings xlen) parcel then none
  else if isListed hintEncodings parcel then some .softFail
  else some .success

/-- The terms that both listings make. -/
def listedTerms (xlen : Xlen) : Terms :=
  ⟨reservedEncodings xlen, hintEncodings⟩

theorem listedStatus?_eq (xlen : Xlen) (parcel : Nat) :
    listedStatus? xlen parcel =
      ((listedTerms xlen).doubt? (fun _ => false) parcel).map .ofDoubt := by
  rw [listedStatus?]
  change _ = Option.map _
    (if isListed (reservedEncodings xlen) parcel then none
      else some (isListed hintEncodings parcel))
  cases isListed (reservedEncodings xlen) parcel with
  | true => rfl
  | false => cases isListed hintEncodings parcel <;> rfl

/-- The listings test nothing but fields. -/
theorem testsFields_listedTerms (xlen : Xlen) :
    (listedTerms xlen).testsFields := by
  cases xlen <;> decide

/-! ## The decode program -/

/-- The doubts where bits that are expected to be zero may be others. -/
def expectedZeros (zeros : Nat) : List (List Guard) :=
  if zeros = 0 then [] else [[.otherField 12 1 0], [.otherField 2 5 0]]

/-- The terms at the end of a path of the decode program. -/
def endTerms (xlen : Xlen) : Ending → Terms
  | .fail => { refused := [[]] }
  | .decode _ number zeros _ =>
    (((Format.ofId? number).map (Format.terms xlen)).getD {}).withDoubts
      (expectedZeros zeros)

/-- Whether an end expects nothing, or a constant of six bits to be zero. -/
def expectsConstant : Ending → Bool
  | .fail => true
  | .decode _ _ zeros ones => (zeros = 0 || zeros = constantBits) && ones = 0

theorem expectsConstant_of_mem :
    ∀ path ∈ program.paths, expectsConstant path.ending := by
  decide +kernel

/-- What is expected is violated if one of the two fields is not zero. -/
theorem violates_eq_holdAny
    (grants : Nat → Bool)
    (value : Nat)
    {zeros : Nat}
    (expects : zeros = 0 ∨ zeros = constantBits) :
    violates value zeros 0 =
      Guard.holdAny grants value (expectedZeros zeros) := by
  rcases expects with rfl | rfl
  · simp [violates, expectedZeros, Guard.holdAny]
  · have masks : constantBits = fieldMask 12 1 ||| fieldMask 2 5 := by
      decide
    have nonzero : constantBits ≠ 0 := by decide
    rw [violates, expectedZeros, if_neg nonzero, masks,
      Nat.and_or_distrib_left, and_fieldMask, and_fieldMask]
    simp [Nat.or_eq_zero_iff, Guard.holdAny, Guard.holds]

section Status

variable {xlen : Xlen} {features : Features} {word : Word}

theorem statusOf?_finishDecode
    (opcode number : Nat)
    (violated : Bool)
    {format : Format}
    (named : Format.ofId? number = some format) :
    statusOf? ((isa xlen).finishDecode word opcode number violated) =
      (doubtOf? (format.read xlen word)).map fun doubtful =>
        .ofDoubt (violated || doubtful) := by
  have reads :
      (isa xlen).readOperands number word = format.read xlen word := by
    simp [isa, named]
  rw [Isa.finishDecode, reads]
  cases format.read xlen word <;> rfl

/-- The end of a path accepts the words that its terms say, as they say. -/
theorem statusOf?_outcome
    (two : word.size = 2)
    {path : Path}
    (member : path ∈ program.paths)
    (grants : Nat → Bool) :
    statusOf? (path.ending.outcome (isa xlen) word) =
      ((endTerms xlen path.ending).doubt? grants word.value).map
        .ofDoubt := by
  have expects := expectsConstant_of_mem path member
  cases ending : path.ending with
  | fail => rfl
  | decode opcode number zeros ones =>
      rcases exists_format_of_isShaped (isShaped_of_mem path member) ending
        with ⟨format, named, short⟩
      simp only [ending, expectsConstant, Bool.and_eq_true, Bool.or_eq_true,
        decide_eq_true_eq] at expects
      rcases expects with ⟨expects, rfl⟩
      rw [Ending.outcome, statusOf?_finishDecode _ _ _ named,
        format.doubtOf?_read grants two short, endTerms, named,
        violates_eq_holdAny grants word.value expects]
      change _ = Option.map _ (((format.terms xlen).withDoubts _).doubt? ..)
      rw [Terms.doubt?_withDoubts, Option.map_map]
      rfl

/-- The requirements of a processor with all extensions. -/
def foreseesAll (xlen : Xlen) (predicate : Nat) : Option Bool :=
  (Requirement.ofId? predicate).map (Requirement.met xlen .all)

theorem Requirement.met_of_containsAll
    (all : features.containsAll .all)
    (requirement : Requirement) :
    requirement.met xlen features = requirement.met xlen .all := by
  cases requirement with
  | rv64 => rfl
  | multiply | float | double | compressed | control =>
      exact Features.has_of_containsAll all (by decide)

theorem grants_of_foreseesAll
    (all : features.containsAll .all)
    (predicate : Nat)
    (decided : Bool)
    (foreseen : foreseesAll xlen predicate = some decided) :
    (isa xlen).grants predicate features = decided := by
  rcases Option.map_eq_some_iff.mp foreseen with ⟨requirement, known, rfl⟩
  have grants :
      (isa xlen).grants predicate features =
        requirement.met xlen features := by
    simp only [isa, known]
  exact grants.trans (Requirement.met_of_containsAll all requirement)

end Status

/-! ## Comparison -/

/-- The ways through the decode program with all extensions. -/
def ways (xlen : Xlen) : List Way :=
  (program.paths.map (Path.way (endTerms xlen))).filterMap
    (Way.narrow? (Guard.verdict .nothing (foreseesAll xlen)))

/-- The fields that the ways and the listings test. -/
def questions : List Question :=
  [.which 13 3, .whether 5 8 0, .which 12 1, .which 10 2, .which 5 2,
    .whether 2 5 0, .whether 7 5 0, .whether 7 5 2]

/-- Whether the decode program and the listings agree in a quadrant. -/
def agreesInQuadrant (xlen : Xlen) (quadrant : Nat) : Bool :=
  let judge := (Guard.field 0 2 quadrant).verdictGiven
  Way.agree questions ((ways xlen).filterMap (Way.narrow? judge))
    ((listedTerms xlen).narrow judge)

theorem agreesInQuadrant_of_lt (xlen : Xlen) :
    ∀ quadrant < 3, agreesInQuadrant xlen quadrant := by
  cases xlen <;> decide +kernel

/-- Two bytes of which the first selects no greater length are a word. -/
theorem exists_readWord
    {low : UInt8}
    (short : low.toNat % 4 ≠ 3)
    (high : UInt8)
    (more : List UInt8)
    (address : Address)
    (xlen : Xlen)
    (options : Options) :
    ∃ word,
      Engine.readWord ⟨isa xlen, options⟩ (low :: high :: more) address =
          .ok word ∧
        word.size = 2 ∧
        word.value = low.toNat + 256 * high.toNat := by
  have order : (isa xlen).byteOrder = .little := by cases xlen <;> rfl
  have selected :
      (isa xlen).widthRule.size? (low :: high :: more) = some 2 :=
    if_pos short
  have enough :
      (isa xlen).widthRule.needed? (low :: high :: more) = none := by
    rw [WidthRule.needed?_eq_none_iff, selected]
    simp [isa, WidthRule.least]
  rw [Engine.readWord, WidthRule.readWord_of_enough enough, selected, order]
  refine ⟨_, rfl, rfl, ?_⟩
  simp [ByteOrder.value, littleEndian]

section Decoding

variable
  {xlen : Xlen}
  {options : Options}
  (allFeatures : options.features.containsAll .all)
include allFeatures

/-- The decode program gives a parcel the status that is listed for it. -/
theorem statusOf?_decodeRaw
    {word : Word}
    (two : word.size = 2)
    (short : bitField word.value 0 2 < 3) :
    statusOf? (Engine.decodeRaw ⟨isa xlen, options⟩ word) =
      listedStatus? xlen word.value := by
  have foresees :
      ∀ guard decided,
        Guard.verdict .nothing (foreseesAll xlen) guard = some decided →
          guard.holds ((isa xlen).grants · options.features) word.value =
            decided :=
    fun _ _ judged =>
      Guard.holds_of_verdict (Known.agrees_nothing _)
        (grants_of_foreseesAll allFeatures) judged
  have given :
      (Guard.field 0 2 (bitField word.value 0 2)).holds
        ((isa xlen).grants · options.features) word.value := by
    simp [Guard.holds]
  have inQuadrant := Guard.holds_of_verdictGiven given
  rw [(laysOut xlen word.size).decodeRaw_eq, two]
  have found : xlen.architecture.program? 2 = some program := by
    cases xlen <;> rfl
  rw [found, listedStatus?_eq]
  change statusOf? (program.eval ..) = _
  rw [Program.statusOf?_eval fun path member =>
    statusOf?_outcome two member _]
  congr 1
  calc Way.doubt? ((isa xlen).grants · options.features) word.value
        (program.paths.map (Path.way (endTerms xlen)))
      = Way.doubt? ((isa xlen).grants · options.features) word.value
          (ways xlen) := (Way.doubt?_filterMap_narrow? foresees _).symm
    _ = (listedTerms xlen).doubt? ((isa xlen).grants · options.features)
          word.value := by
        rw [← Way.doubt?_filterMap_narrow? inQuadrant,
          ← Terms.doubt?_narrow inQuadrant]
        exact Way.doubt?_eq_of_agree
          (agreesInQuadrant_of_lt xlen _ short)
    _ = (listedTerms xlen).doubt? (fun _ => false) word.value :=
        Terms.doubt?_of_testsFields (testsFields_listedTerms xlen)

/--
With all extensions, a parcel is refused if it is reserved, accepted with a
doubt if it is a hint, and accepted in earnest if it is neither.
-/
theorem status_of_parcel
    {low : UInt8}
    (short : low.toNat % 4 ≠ 3)
    (high : UInt8)
    (more : List UInt8)
    (address : Address)
    (wantDetail : Bool) :
    (Engine.decodeWith ⟨isa xlen, options⟩ (low :: high :: more) address
        wantDetail).toOption.map Decoded.status =
      listedStatus? xlen (low.toNat + 256 * high.toNat) := by
  rcases exists_readWord short high more address xlen options with
    ⟨word, read, two, same⟩
  have quadrant : bitField word.value 0 2 < 3 := by
    rw [same, bitField]
    omega
  have known : xlen.architecture.isa? = some (isa xlen) := by
    cases xlen <;> rfl
  rw [Engine.decodeWith, read, ← same]
  exact (Engine.status_of_decodeWord known ..).trans
    (statusOf?_decodeRaw allFeatures two quadrant)

end Decoding

/-- A shift by 32 is reserved for RV32, and a shift by zero is a hint. -/
theorem status_of_shiftLeft :
    Features.all.containsAll .all ∧
      (0x02 : UInt8).toNat % 4 ≠ 3 ∧
      (Engine.decodeWith ⟨isa .rv32, {}⟩ [0x02, 0x15] 0x1000
        true).toOption.map Decoded.status = none ∧
      (Engine.decodeWith ⟨isa .rv32, {}⟩ [0x02, 0x05] 0x1000
        true).toOption.map Decoded.status = some .softFail := by
  have all : Features.all.containsAll .all := by decide
  have short : (0x02 : UInt8).toNat % 4 ≠ 3 := by decide
  exact ⟨all, short, status_of_parcel all short 0x15 [] 0x1000 true,
    status_of_parcel all short 0x05 [] 0x1000 true⟩

end RiscV.Compressed

end MachineCode
