import MachineCode.Engine
import MachineCode.Proofs.RiscV.Names
import MachineCode.Proofs.RiscV.Pseudo
import MachineCode.Proofs.RiscV.Wide

/-!
# Compressed instructions agree with their expansions

Each path of the compressed decode program belongs to one row of the manual's
listing (`Compressed.exists_expansion_of_mem_paths`), and the format at its
end reads what the row keeps. So a compressed word has the operands of its
expansion, but for those left out, and touches the same registers
(`Compressed.agrees_with_expansion`).
-/

namespace MachineCode.RiscV

/-- Whether a part may be left out for a reason. -/
def Place.admits (destination : Option Part) : Place → Part → Bool
  | .kept, _ => true
  | .zero, part => part = .register (.fixed zeroRegister)
  | .link, part => part = .register (.fixed linkRegister)
  | .repeated, part => part ≠ .amount && some part = destination
  | .noConstant, part => part = .noConstant

namespace Expansion

/-- All parts of the expansion. -/
def allParts (expansion : Expansion) : List Part :=
  expansion.parts.map Prod.snd

/-- The parts that the compressed instruction keeps. -/
def keptParts (expansion : Expansion) : List Part :=
  (expansion.parts.filter fun part => part.1 = .kept).map Prod.snd

/-- Whether each part that is left out is what its place says. -/
def placesAreSound (expansion : Expansion) : Bool :=
  expansion.parts.all fun (place, part) =>
    place.admits expansion.allParts.head? part

theorem operands_eq
    (xlen : Xlen)
    (address : Address)
    (parcel : Nat)
    (expansion : Expansion) :
    expansion.operands xlen address parcel =
      expansion.allParts.map (Part.operand xlen address parcel) := by
  rw [operands, allParts, List.map_map]
  rfl

/-- Whether the expansion is an instruction that its encoding takes. -/
def isEncodable (xlen : Xlen) (expansion : Expansion) : Bool :=
  match expansion.long.encoding? xlen with
  | none => false
  | some encoding => encoding.accepts xlen expansion.allParts

/-- Whether both instructions touch the same registers by name. -/
def touchesSoundly (expansion : Expansion) : Bool :=
  expansion.allParts.all Part.isSound &&
    expansion.short.impliesIntegers && expansion.long.impliesIntegers &&
    expansion.long.namesSoundly expansion.allParts &&
    sameNames expansion.short expansion.keptParts expansion.long
      expansion.allParts

/--
Whether the compressed instruction has no other preferred form, and the rules
for the preferred form of its expansion keep the registers.
-/
def preferredSoundly (expansion : Expansion) : Bool :=
  (pseudos.all fun rule => rule.opcode ≠ expansion.short.id) &&
    expansion.long.info.operation ≠ .systemAccess

/-- What holds of every row of the listing. -/
def isSound (xlen : Xlen) (expansion : Expansion) : Bool :=
  expansion.placesAreSound && expansion.isEncodable xlen &&
    expansion.long.admitted xlen .all && expansion.touchesSoundly &&
    expansion.preferredSoundly

/-- A shift amount is never left out. -/
theorem amount_mem_keptParts
    {expansion : Expansion}
    (sound : expansion.placesAreSound)
    (member : .amount ∈ expansion.allParts) :
    .amount ∈ expansion.keptParts := by
  rcases List.mem_map.mp member with ⟨⟨place, part⟩, listed, same⟩
  cases same
  have admitted := List.all_eq_true.mp sound _ listed
  cases place with
  | kept =>
      refine List.mem_map_of_mem (List.mem_filter.mpr ⟨listed, ?_⟩)
      exact decide_eq_true rfl
  | zero | link | repeated | noConstant => cases admitted

/--
Where the kept parts mean the operands of a compressed instruction, its
operands are those of the expansion with the others left out.
-/
theorem shortens_of_means
    {xlen : Xlen}
    {word : Word}
    {destination : Option Part}
    {parts : List (Place × Part)}
    (sound : parts.all fun (place, part) => place.admits destination part)
    {shorts : List Operand}
    (means :
      List.Forall₂ (Part.Means xlen word)
        ((parts.filter fun part => part.1 = .kept).map Prod.snd) shorts) :
    Shortens xlen
      (destination.map (Part.operand xlen word.address word.value))
      (parts.map Prod.fst)
      (parts.map fun part =>
        part.2.operand xlen word.address word.value)
      shorts := by
  induction parts generalizing shorts with
  | nil =>
      cases means
      trivial
  | cons first parts induction =>
      rcases first with ⟨place, part⟩
      rw [List.all_cons, Bool.and_eq_true] at sound
      rcases sound with ⟨admitted, sound⟩
      cases place with
      | kept =>
          cases means with
          | cons same means => exact ⟨same, induction sound means⟩
      | zero =>
          cases of_decide_eq_true admitted
          exact ⟨rfl, induction sound means⟩
      | link =>
          cases of_decide_eq_true admitted
          exact ⟨rfl, induction sound means⟩
      | repeated =>
          simp only [Place.admits, Bool.and_eq_true, decide_eq_true_eq]
            at admitted
          rcases admitted with ⟨-, same⟩
          refine ⟨?_, induction sound means⟩
          rw [← same, Option.map_some]
      | noConstant =>
          cases of_decide_eq_true admitted
          exact ⟨rfl, induction sound means⟩

end Expansion

namespace Compressed

/-- Whether a path belongs to one row, and reads what the row keeps. -/
def pathIsListed (xlen : Xlen) (path : Path) : Bool :=
  match path.ending with
  | .fail => true
  | .decode number format _ _ =>
    !path.possible .nothing xlen.foresees ||
      match
        (expansions xlen).find? fun expansion =>
          expansion.tests.all fun guard => path.judge guard ≠ some false,
        Format.ofId? format
      with
      | some expansion, some format =>
        (expansion.tests.all fun guard => path.judge guard = some true) &&
          number = expansion.short.id &&
          format.parts = some expansion.keptParts
      | _, _ => false

/-- Whether the table is valid and has the rows of the listing. -/
def tableIsSound (xlen : Xlen) : Bool :=
  (table.validate Format.count Requirement.count).isOk &&
    (expansions xlen).all (Expansion.isSound xlen) &&
    program.paths.all (pathIsListed xlen)

/-- The table and the listing pass, by computation. -/
theorem tableIsSound_eq_true (xlen : Xlen) : tableIsSound xlen = true := by
  cases xlen <;> decide +kernel

theorem validate_table :
    table.validate Format.count Requirement.count = .ok () := by
  have sound := tableIsSound_eq_true .rv64
  simp only [tableIsSound, Bool.and_eq_true] at sound
  exact Table.validate_of_isOk sound.1.1

theorem isSound_of_mem_expansions
    {xlen : Xlen}
    {expansion : Expansion}
    (member : expansion ∈ expansions xlen) :
    expansion.isSound xlen := by
  have sound := tableIsSound_eq_true xlen
  simp only [tableIsSound, Bool.and_eq_true] at sound
  exact List.all_eq_true.mp sound.1.2 expansion member

/-- A possible path belongs to a row, which all its words have. -/
theorem exists_expansion_of_mem_paths
    {xlen : Xlen}
    {path : Path}
    (member : path ∈ program.paths)
    (possible : path.possible .nothing xlen.foresees)
    {number formatNumber zeros ones : Nat}
    (ending : path.ending = .decode number formatNumber zeros ones)
    {grants : Nat → Bool}
    {parcel : Nat}
    (holds : path.holds grants parcel)
    (met : violates parcel zeros ones = false) :
    ∃ expansion format,
      expansion? xlen parcel = some expansion ∧
        Format.ofId? formatNumber = some format ∧
        number = expansion.short.id ∧
        format.parts = some expansion.keptParts := by
  have sound := tableIsSound_eq_true xlen
  simp only [tableIsSound, Bool.and_eq_true] at sound
  have listed := List.all_eq_true.mp sound.2 path member
  have agrees := Path.agrees_fixedBits holds ending met
  simp only [pathIsListed, ending, possible, Bool.not_true, Bool.false_or]
    at listed
  split at listed
  · next expansion format first formatFound =>
    simp only [Bool.and_eq_true, decide_eq_true_eq] at listed
    rcases listed with ⟨⟨certain, sameNumber⟩, sameParts⟩
    refine ⟨expansion, format, ?_, formatFound, sameNumber, sameParts⟩
    refine find?_eq_some_of_possible ?_ first ?_
    · intro other _ applies
      rw [List.all_eq_true]
      intro guard tested
      rw [decide_eq_true_eq]
      intro judged
      have fails := Path.holds_of_judge holds agrees judged fun _ => false
      have passes := List.all_eq_true.mp applies guard tested
      rw [fails] at passes
      cases passes
    · rw [Expansion.applies, List.all_eq_true]
      intro guard tested
      have judged := List.all_eq_true.mp certain guard tested
      rw [decide_eq_true_eq] at judged
      exact Path.holds_of_judge holds agrees judged fun _ => false
  · cases listed

/-- What decodes in earnest reads what a row of the listing keeps. -/
theorem exists_expansion_of_run
    {xlen : Xlen}
    {features : Features}
    {word : Word}
    (two : word.size = 2)
    {raw : RawInstruction}
    (decoded : (isa xlen).run table word features = .ok raw)
    (success : raw.status = .success) :
    ∃ expansion result,
      expansion? xlen word.value = some expansion ∧
        raw.opcode = expansion.short.id ∧
        raw.operands = result.operands ∧
        raw.specifics = result.specifics ∧
        Reading.Gives xlen word expansion.keptParts result := by
  have sixteen : word.width = 16 := by rw [Word.width, two]
  have evaluates :=
    (isa xlen).run_toTable_of_validate features validate_table sixteen
  rw [table, evaluates] at decoded
  rcases exists_path_of_success decoded success with
    ⟨path, member, holds, possible, formatNumber, zeros, ones, ending, met,
      finished⟩
  rcases exists_expansion_of_mem_paths member possible ending holds met with
    ⟨expansion, format, expands, formatFound, sameNumber, sameParts⟩
  rcases exists_reading_of_finishDecode formatFound finished with
    ⟨result, read, sameOperands, sameSpecifics⟩
  exact ⟨expansion, result, expands, sameNumber, sameOperands,
    sameSpecifics, format.gives_of_read two sameParts read⟩

/-! ## The expansion as a word -/

/-- The expansion of a parcel is encoded in a word that decodes to it. -/
theorem exists_encode?_of_isEncodable
    {xlen : Xlen}
    {expansion : Expansion}
    (encodable : expansion.isEncodable xlen)
    (admitted : expansion.long.admitted xlen .all)
    (address : Address)
    {parcel : Nat}
    (amountSmall :
      .amount ∈ expansion.allParts →
        Scattering.constant.value parcel < 2 ^ xlen.shiftBits) :
    ∃ value,
      value < 2 ^ 32 ∧
        expansion.long.encode? xlen
            (expansion.operands xlen address parcel) none =
          some value ∧
        ∀ long : Word,
          long.size = 4 → long.address = address → long.value = value →
            (isa xlen).run Wide.table long .all =
              .ok
                { opcode := expansion.long.id
                  operands := expansion.operands xlen address parcel
                  status := .success
                  specifics := .riscV none } := by
  rw [Expansion.isEncodable] at encodable
  split at encodable
  · cases encodable
  · next encoding found =>
    have fits := Encoding.fits_of_accepts encodable address amountSmall
    rw [← Expansion.operands_eq] at fits
    rcases Wide.exists_path_of_encoding admitted found with ⟨wellFormed, -⟩
    rcases Encoding.exists_encode?_of_fits wellFormed fits with
      ⟨value, encoded, represented⟩
    refine ⟨value, represented.1, ?_, ?_⟩
    · rw [Opcode.encode?, found]
      exact encoded
    · rintro long four rfl rfl
      exact Wide.run_of_represents admitted found four represented

/-! ## Detail records -/

/-- The detail record that an engine gives a word, if the word decodes. -/
def detail? (engine : Engine) (word : Word) : Option Detail :=
  match engine.decodeWord word true with
  | .ok decoded => decoded.instruction.detail
  | .error _ => none

/-- A word is given the detail record of its preferred form. -/
theorem detail?_of_decodeRaw
    {xlen : Xlen}
    {options : Options}
    {word : Word}
    {raw : RawInstruction}
    (decoded : Engine.decodeRaw ⟨isa xlen, options⟩ word = .ok raw)
    {preferred : Opcode}
    (same :
      (Alias.canonicalize pseudos raw.form).opcode = preferred.id) :
    detail? ⟨isa xlen, options⟩ word =
      some
        (preferred.detail xlen (Alias.canonicalize pseudos raw.form).operands
          raw.specifics) := by
  have described :
      (isa xlen).info? (Alias.canonicalize pseudos raw.form).opcode =
        some preferred.info := by
    rw [same]
    exact congrArg (Option.map Opcode.info) (Opcode.ofId?_id preferred)
  rw [detail?, Engine.decodeWord, decoded]
  simp only [Engine.finishRaw]
  rw [show (isa xlen).aliases = pseudos from rfl, described]
  rfl

section Registers

variable
  {xlen : Xlen}
  {word : Word}
  {expansion : Expansion}
  (touches : expansion.touchesSoundly)
include touches

theorem isSound_of_mem_allParts :
    ∀ part ∈ expansion.allParts, part.isSound := by
  simp only [Expansion.touchesSoundly, Bool.and_eq_true] at touches
  exact List.all_eq_true.mp touches.1.1.1.1

/-- The expansion touches registers of the instruction set. -/
theorem ownsMentions_expansion :
    xlen.OwnsMentions
      (expansion.long.detail xlen
        (expansion.operands xlen word.address word.value)
        (.riscV none)) := by
  have allSound := isSound_of_mem_allParts touches
  simp only [Expansion.touchesSoundly, Bool.and_eq_true] at touches
  rcases touches with ⟨⟨⟨-, integers⟩, soundNames⟩, -⟩
  rw [Expansion.operands_eq]
  exact ownsMentions (Part.means_operand xlen word _) allSound integers
    soundNames none

/-- A compressed instruction touches the registers that its expansion does. -/
theorem sameTouches_expansion
    {operands : List Operand}
    (means :
      List.Forall₂ (Part.Means xlen word) expansion.keptParts operands) :
    SameTouches (expansion.short.detail xlen operands (.riscV none))
      (expansion.long.detail xlen
        (expansion.operands xlen word.address word.value)
        (.riscV none)) := by
  have allSound := isSound_of_mem_allParts touches
  have keptSound : ∀ part ∈ expansion.keptParts, part.isSound := by
    intro part member
    rcases List.mem_map.mp member with ⟨placed, kept, rfl⟩
    exact allSound _ (List.mem_map_of_mem (List.mem_filter.mp kept).1)
  simp only [Expansion.touchesSoundly, Bool.and_eq_true] at touches
  rcases touches with ⟨⟨⟨⟨-, shortIntegers⟩, longIntegers⟩, -⟩, same⟩
  rw [Expansion.operands_eq]
  exact sameTouches_of_sameNames same shortIntegers longIntegers keptSound
    allSound means (Part.means_operand xlen word _) none

/-- The records of both words list the same registers. -/
theorem exists_details
    (preferred : expansion.preferredSoundly)
    {options : Options}
    {raw : RawInstruction}
    (decoded : Engine.decodeRaw ⟨isa xlen, options⟩ word = .ok raw)
    (sameOpcode : raw.opcode = expansion.short.id)
    (sameSpecifics : raw.specifics = .riscV none)
    (means :
      List.Forall₂ (Part.Means xlen word) expansion.keptParts raw.operands)
    {long : Word}
    {status : DecodeStatus}
    (longDecoded :
      Engine.decodeRaw ⟨isa xlen, options⟩ long =
        .ok
          { opcode := expansion.long.id
            operands := expansion.operands xlen word.address word.value
            status
            specifics := .riscV none }) :
    ∃ detail longDetail,
      detail? ⟨isa xlen, options⟩ word = some detail ∧
        detail? ⟨isa xlen, options⟩ long = some longDetail ∧
        SameRegisters detail longDetail := by
  rw [Expansion.preferredSoundly, Bool.and_eq_true, decide_eq_true_eq]
    at preferred
  rcases preferred with ⟨notAliased, ordinary⟩
  have owned :
      ∀ operand ∈ expansion.operands xlen word.address word.value,
        xlen.OwnsOperand operand := by
    rw [Expansion.operands_eq]
    intro operand member
    rcases List.mem_map.mp member with ⟨part, listed, rfl⟩
    exact Part.ownsOperand (isSound_of_mem_allParts touches part listed) xlen
      word.address word.value
  have takes : expansion.long.Takes xlen _ :=
    ⟨fun operand member => eq_link_of_isRegister (owned operand member),
      fun system => absurd system ordinary⟩
  rcases sameTouches_canonicalize takes (.riscV none) with
    ⟨longPreferred, longOpcode, samePreferred⟩
  have shortForm : Alias.canonicalize pseudos raw.form = raw.form := by
    rw [RawInstruction.form, sameOpcode]
    exact canonicalize_eq_self notAliased raw.operands
  have shortOpcode :
      (Alias.canonicalize pseudos raw.form).opcode = expansion.short.id := by
    rw [shortForm]
    exact sameOpcode
  have shortDetail := detail?_of_decodeRaw decoded shortOpcode
  rw [shortForm, sameSpecifics] at shortDetail
  refine ⟨_, _, shortDetail, detail?_of_decodeRaw longDecoded longOpcode, ?_⟩
  exact ((sameTouches_expansion touches means).trans
    samePreferred).sameRegisters
      (samePreferred.symm.ownsMentions (ownsMentions_expansion touches))

end Registers

/-! ## Agreement -/

/--
A raw instruction that is read off a compressed word, a row of the listing, and
the value of the word that its expansion is encoded in.
-/
structure StandsFor
    (xlen : Xlen)
    (options : Options)
    (word : Word)
    (raw : RawInstruction)
    (expansion : Expansion)
    (value : Nat) :
    Prop where
  expands : expansion? xlen word.value = some expansion
  places : expansion.placesAreSound
  touches : expansion.touchesSoundly
  preferred : expansion.preferredSoundly
  opcode : raw.opcode = expansion.short.id
  specifics : raw.specifics = .riscV none
  means : List.Forall₂ (Part.Means xlen word) expansion.keptParts raw.operands
  small : value < 2 ^ 32
  encoded :
    expansion.long.encode? xlen
        (expansion.operands xlen word.address word.value) none =
      some value
  /-- Any word of this value at the address is read as the expansion. -/
  decodes (long : Word) :
    long.size = 4 → long.address = word.address → long.value = value →
      Engine.decodeRaw ⟨isa xlen, options⟩ long =
        .ok
          { opcode := expansion.long.id
            operands := expansion.operands xlen word.address word.value
            status := .success
            specifics := .riscV none }

/-- A compressed word that decodes in earnest stands for an expansion. -/
theorem exists_standsFor
    {xlen : Xlen}
    {options : Options}
    (allFeatures : options.features = .all)
    {word : Word}
    (two : word.size = 2)
    {raw : RawInstruction}
    (decoded : Engine.decodeRaw ⟨isa xlen, options⟩ word = .ok raw)
    (success : raw.status = .success) :
    ∃ expansion value, StandsFor xlen options word raw expansion value := by
  have run : (isa xlen).run table word .all = .ok raw := by
    rw [← decoded, Engine.decodeRaw, two, ← allFeatures]
    rfl
  rcases exists_expansion_of_run two run success with
    ⟨expansion, result, expands, sameOpcode, sameOperands, sameSpecifics,
      specifics, means, amountSmall⟩
  have sound :=
    isSound_of_mem_expansions (List.mem_of_find?_eq_some expands)
  simp only [Expansion.isSound, Bool.and_eq_true] at sound
  rcases sound with ⟨⟨⟨⟨places, encodable⟩, admitted⟩, touches⟩, preferred⟩
  rcases
      exists_encode?_of_isEncodable encodable admitted word.address
        fun member =>
          amountSmall (Expansion.amount_mem_keptParts places member) with
    ⟨value, small, encoded, decodes⟩
  refine
    ⟨expansion, value,
      { expands, places, touches, preferred, small, encoded
        opcode := sameOpcode
        specifics := sameSpecifics.trans specifics
        means := sameOperands ▸ means
        decodes := ?_ }⟩
  intro long four sameAddress sameValue
  rw [← decodes long four sameAddress sameValue, Engine.decodeRaw, four,
    ← allFeatures]
  rfl

/--
A compressed word that decodes in earnest stands for the instruction that the
manual lists as its expansion. The word that encodes the expansion decodes at
the same address, the compressed word has its operands but for those left out,
and the records of both list the same registers, apart from the zero register.
-/
theorem agrees_with_expansion
    (xlen : Xlen)
    {options : Options}
    (allFeatures : options.features = .all)
    {word : Word}
    (two : word.size = 2)
    {raw : RawInstruction}
    (decoded : Engine.decodeRaw ⟨isa xlen, options⟩ word = .ok raw)
    (success : raw.status = .success) :
    ∃ expansion value,
      expansion? xlen word.value = some expansion ∧
        raw.opcode = expansion.short.id ∧
        value < 2 ^ 32 ∧
        expansion.long.encode? xlen
            (expansion.operands xlen word.address word.value) none =
          some value ∧
        ∀ long : Word,
          long.size = 4 → long.address = word.address →
            long.value = value →
              ∃ longRaw detail longDetail,
                Engine.decodeRaw ⟨isa xlen, options⟩ long = .ok longRaw ∧
                  longRaw.status = .success ∧
                  longRaw.opcode = expansion.long.id ∧
                  Shortens xlen longRaw.operands.head?
                    (expansion.parts.map Prod.fst) longRaw.operands
                    raw.operands ∧
                  detail? ⟨isa xlen, options⟩ word = some detail ∧
                  detail? ⟨isa xlen, options⟩ long = some longDetail ∧
                  SameRegisters detail longDetail := by
  rcases exists_standsFor allFeatures two decoded success with
    ⟨expansion, value, stands⟩
  refine
    ⟨expansion, value, stands.expands, stands.opcode, stands.small,
      stands.encoded, ?_⟩
  intro long four sameAddress sameValue
  have longDecoded := stands.decodes long four sameAddress sameValue
  rcases
      exists_details stands.touches stands.preferred decoded stands.opcode
        stands.specifics stands.means longDecoded with
    ⟨detail, longDetail, described, longDescribed, same⟩
  refine ⟨_, detail, longDetail, longDecoded, rfl, rfl, ?_, described,
    longDescribed, same⟩
  have shortens := Expansion.shortens_of_means stands.places stands.means
  rwa [← List.head?_map, ← Expansion.operands_eq] at shortens

/-- A word of `c.beqz s0, . - 2`. -/
def beqzWord : Word :=
  ⟨[0x7d, 0xdc], 0x1000, 0xdc7d, by simp, by decide⟩

/-- A word of `beq s0, zero, . - 2`. -/
def beqWord : Word :=
  ⟨[0xe3, 0x0f, 0x04, 0xfe], 0x1000, 0xfe040fe3, by simp, by decide⟩

/-- A branch if zero is a branch that compares with the zero register. -/
theorem agrees_with_expansion_beqz :
    ∃ longRaw detail longDetail,
      Engine.decodeRaw ⟨isa .rv64, {}⟩ beqWord = .ok longRaw ∧
        longRaw.status = .success ∧
        longRaw.opcode = Opcode.beq.id ∧
        Shortens .rv64 longRaw.operands.head? [.kept, .zero, .kept]
          longRaw.operands
          [Bank.integer.operand .rv64 8, targetAt 0x1000 (-2)] ∧
        detail? ⟨isa .rv64, {}⟩ beqzWord = some detail ∧
        detail? ⟨isa .rv64, {}⟩ beqWord = some longDetail ∧
        SameRegisters detail longDetail := by
  obtain ⟨expansion, value, expands, -, -, encoded, agrees⟩ :=
    @agrees_with_expansion .rv64 {} rfl beqzWord rfl
      { opcode := Opcode.cBeqz.id
        operands := [Bank.integer.operand .rv64 8, targetAt 0x1000 (-2)]
        status := .success
        specifics := .riscV none }
      (by decide +kernel) rfl
  have listed :
      expansion? .rv64 beqzWord.value =
        some (comparingZero .cBeqz 0b110 .beq) := by
    rfl
  rw [listed] at expands
  cases expands
  have computed :
      (comparingZero .cBeqz 0b110 .beq).long.encode? .rv64
          ((comparingZero .cBeqz 0b110 .beq).operands .rv64 beqzWord.address
            beqzWord.value)
          none =
        some beqWord.value := by
    decide +kernel
  rw [computed] at encoded
  exact agrees beqWord rfl rfl (Option.some.inj encoded)

end Compressed

end MachineCode.RiscV
