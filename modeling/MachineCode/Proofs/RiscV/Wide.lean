import MachineCode.Proofs.RiscV.Recovery
import MachineCode.Proofs.RiscV.Representation
import MachineCode.Proofs.Table.Decoding
import MachineCode.Proofs.Table.Layout

/-!
# The 32-bit decode table

Decoding with the table and encoding with the manual are inverse to each
other. Both directions look at the paths of the decode program. A path that
ends with an opcode fixes every field that the encoding of the opcode fixes
(`Wide.pathIsSound`), so what is read at its end is encoded in the word again.
The fields that an encoding fixes lead along one path, which ends with the
opcode (`Wide.isReached`), so the operands are read again.

Both facts about the paths are decided by evaluation.
-/

namespace MachineCode.RiscV

/-- The operand formats that read the operands of an encoding. -/
def Encoding.formats (xlen : Xlen) : Encoding → List Format
  | .upper _ => [.upper]
  | .jump _ => [.jump]
  | .branch _ => [.branch]
  | .load .integer _ _ _ => [.load]
  | .load .floating _ _ _ => [.floatLoad]
  | .store .integer _ _ _ => [.store]
  | .store .floating _ _ _ => [.floatStore]
  | .constant _ _ => [.constant, .jumpRegister]
  | .shift bits _ _ _ =>
    (if bits = xlen.shiftBits then [.shift] else []) ++
      if bits = 5 then [.shiftWord] else []
  | .registers _ _ _ => [.registers]
  | .control _ => [.control]
  | .controlConstant _ => [.controlConstant]
  | .float _ => [.floatArithmetic]
  | .move .integer .floating _ => [.floatToInteger]
  | .move .floating .integer _ => [.integerToFloat]
  | .move _ _ _ => []
  | .bare _ => [.bare]

theorem Encoding.read_of_mem_formats
    {xlen : Xlen}
    {encoding : Encoding}
    {format : Format}
    (member : format ∈ encoding.formats xlen) :
    format.read xlen = encoding.read xlen := by
  cases encoding with
  | load bank _ _ _ | store bank _ _ _ =>
      cases bank <;> rw [List.mem_singleton.mp member] <;> rfl
  | move destination source _ =>
      cases destination <;> cases source <;>
        first
        | rw [List.mem_singleton.mp member]; rfl
        | cases member
  | constant _ _ =>
      simp only [formats, List.mem_cons, List.not_mem_nil, or_false]
        at member
      rcases member with rfl | rfl <;> rfl
  | shift bits _ _ _ =>
      rw [formats, List.mem_append] at member
      rcases member with wide | word
      · split at wide
        · next same =>
          rw [List.mem_singleton.mp wide, read, same]
          rfl
        · cases wide
      · split at word
        · next same =>
          rw [List.mem_singleton.mp word, read, same]
          rfl
        · cases word
  | upper | jump | branch | registers | control | controlConstant | float
  | bare =>
      rw [List.mem_singleton.mp member]
      rfl

/-- The operands at the end of a path, read in a format that there is. -/
theorem exists_reading_of_finishDecode
    {xlen : Xlen}
    {word : Word}
    {opcode number : Nat}
    {format : Format}
    (found : Format.ofId? number = some format)
    {violated : Bool}
    {raw : RawInstruction}
    (decoded :
      (isa xlen).finishDecode word opcode number violated = .ok raw) :
    ∃ result,
      format.read xlen word = .ok result ∧
        raw.operands = result.operands ∧
        raw.specifics = result.specifics := by
  have reads :
      (isa xlen).readOperands number word = format.read xlen word := by
    simp [isa, found]
  rcases Isa.exists_reading_of_finishDecode decoded with
    ⟨result, read, -, operands, specifics⟩
  rw [reads] at read
  exact ⟨result, read, operands, specifics⟩

/-! ## What is known of the predicates -/

/-- The requirement that the width of the registers decides. -/
def Xlen.foresees (xlen : Xlen) (predicate : Nat) : Option Bool :=
  if predicate = Requirement.rv64.id then some (xlen = .rv64) else none

/-- The requirements that are met where an opcode is admitted. -/
def Opcode.foresees (xlen : Xlen) (opcode : Opcode) (predicate : Nat) :
    Option Bool :=
  if opcode.requirements.any fun requirement => requirement.id = predicate
  then some true
  else xlen.foresees predicate

theorem grants_id (xlen : Xlen) (features : Features)
    (requirement : Requirement) :
    (isa xlen).grants requirement.id features =
      requirement.met xlen features := by
  simp [isa]

theorem Xlen.grants_of_foresees
    {xlen : Xlen}
    (features : Features)
    {predicate : Nat}
    {decided : Bool}
    (foreseen : xlen.foresees predicate = some decided) :
    (isa xlen).grants predicate features = decided := by
  rw [Xlen.foresees] at foreseen
  split at foreseen
  · next same =>
    cases foreseen
    rw [same, grants_id]
    rfl
  · cases foreseen

theorem Opcode.grants_of_foresees
    {xlen : Xlen}
    {features : Features}
    {opcode : Opcode}
    (admitted : opcode.admitted xlen features)
    {predicate : Nat}
    {decided : Bool}
    (foreseen : opcode.foresees xlen predicate = some decided) :
    (isa xlen).grants predicate features = decided := by
  rw [Opcode.foresees] at foreseen
  split at foreseen
  · next required =>
    cases foreseen
    rcases List.any_eq_true.mp required with ⟨requirement, member, same⟩
    rw [decide_eq_true_eq] at same
    rw [← same, grants_id]
    exact List.all_eq_true.mp admitted requirement member
  · exact xlen.grants_of_foresees features foreseen

/-- What decodes in earnest takes a path and meets what its end expects. -/
theorem exists_path_of_success
    {xlen : Xlen}
    {features : Features}
    {word : Word}
    {program : Program}
    {raw : RawInstruction}
    (decoded : program.eval (isa xlen) features word = .ok raw)
    (success : raw.status = .success) :
    ∃ path ∈ program.paths,
      path.holds ((isa xlen).grants · features) word.value ∧
        path.possible .nothing xlen.foresees ∧
        ∃ format zeros ones,
          path.ending = .decode raw.opcode format zeros ones ∧
            violates word.value zeros ones = false ∧
            (isa xlen).finishDecode word raw.opcode format false =
              .ok raw := by
  rcases Program.exists_path_of_success decoded success with
    ⟨path, member, holds, format, zeros, ones, ending, met, finished⟩
  have possible : path.possible .nothing xlen.foresees :=
    Path.possible_of_holds (Known.agrees_nothing word.value)
      (fun _ _ => xlen.grants_of_foresees features) holds
  exact ⟨path, member, holds, possible, format, zeros, ones, ending, met,
    finished⟩

/-! ## What the table is checked for -/

namespace Wide

/-- Whether the manual lists the opcode of an entry, but for the fence. -/
def entryIsListed (xlen : Xlen) : Entry → Bool
  | .decode number _ =>
    number = Opcode.fence.id ||
      match Opcode.ofId? number with
      | some opcode => (opcode.encoding? xlen).isSome
      | none => false
  | _ => true

/-- Whether the end of a path fixes what the encoding of its opcode fixes. -/
def pathIsSound (xlen : Xlen) (path : Path) : Bool :=
  match path.ending with
  | .fail => true
  | .decode number format _ _ =>
    number = Opcode.fence.id || !path.possible .nothing xlen.foresees ||
      match Opcode.ofId? number, Format.ofId? format with
      | some opcode, some format =>
        match opcode.encoding? xlen with
        | some encoding =>
          encoding.wellFormed && (encoding.formats xlen).contains format &&
            encoding.tests.all fun guard =>
              guard.verdict path.fixedBits (fun _ => none) = some true
        | none => false
      | _, _ => false

/-- Whether the fields of an encoding lead to its opcode, on one path. -/
def isReached (xlen : Xlen) (opcode : Opcode) : Bool :=
  match opcode.encoding? xlen with
  | none => true
  | some encoding =>
    (xlen = .rv32 && opcode.requirements.contains .rv64) ||
      encoding.wellFormed &&
        let known := Path.knownBy encoding.tests
        let foreseen := opcode.foresees xlen
        match program.paths.find? (Path.possible known foreseen) with
        | none => false
        | some path =>
          path.certain known foreseen &&
            match path.ending with
            | .fail => false
            | .decode number format zeros ones =>
              number = opcode.id && known.meets zeros ones &&
                (encoding.formats xlen).any fun candidate =>
                  candidate.id = format

/-- Whether the table is valid and has the encodings that the manual lists. -/
def tableIsSound (xlen : Xlen) : Bool :=
  (table.validate Format.count Requirement.count).isOk &&
    table.entries.all (entryIsListed xlen) &&
    program.paths.all (pathIsSound xlen) &&
    (List.range Opcode.count).all fun number =>
      isReached xlen (Opcode.ofNat number)

/-- The table passes, by computation. -/
theorem tableIsSound_eq_true (xlen : Xlen) : tableIsSound xlen = true := by
  cases xlen <;> decide +kernel

theorem validate_table :
    table.validate Format.count Requirement.count = .ok () := by
  have sound := tableIsSound_eq_true .rv64
  simp only [tableIsSound, Bool.and_eq_true] at sound
  exact Table.validate_of_isOk sound.1.1.1

/-- Whether the table names an opcode. -/
def names (opcode : Opcode) : Bool :=
  table.entries.any fun entry =>
    match entry with
    | .decode number _ => number = opcode.id
    | _ => false

/-- The manual's listing has all that the table names, but for the fence. -/
theorem isSome_encoding?_of_names
    (xlen : Xlen)
    {opcode : Opcode}
    (named : names opcode)
    (notFence : opcode ≠ .fence) :
    (opcode.encoding? xlen).isSome := by
  have sound := tableIsSound_eq_true xlen
  simp only [tableIsSound, Bool.and_eq_true] at sound
  rcases List.any_eq_true.mp named with ⟨entry, member, ends⟩
  have listed := List.all_eq_true.mp sound.1.1.2 entry member
  cases entry with
  | decode number format =>
      rw [decide_eq_true_eq] at ends
      subst ends
      have other : opcode.id ≠ Opcode.fence.id :=
        fun same => notFence (Opcode.id_injective same)
      simpa [entryIsListed, other] using listed
  | extract | filter | check | require | expect | fail => cases ends

/-- A possible path ends with an opcode whose encoding it decides. -/
theorem exists_encoding_of_mem_paths
    {xlen : Xlen}
    {path : Path}
    (member : path ∈ program.paths)
    (possible : path.possible .nothing xlen.foresees)
    {number formatNumber zeros ones : Nat}
    (ending : path.ending = .decode number formatNumber zeros ones)
    (notFence : number ≠ Opcode.fence.id) :
    ∃ opcode format encoding,
      Opcode.ofId? number = some opcode ∧
        Format.ofId? formatNumber = some format ∧
        opcode.encoding? xlen = some encoding ∧
        encoding.wellFormed ∧
        format ∈ encoding.formats xlen ∧
        encoding.tests.all fun guard =>
          guard.verdict path.fixedBits (fun _ => none) = some true := by
  have tableSound := tableIsSound_eq_true xlen
  simp only [tableIsSound, Bool.and_eq_true] at tableSound
  have sound := List.all_eq_true.mp tableSound.1.2 path member
  simp only [pathIsSound, ending, notFence, possible, decide_false,
    Bool.not_true, Bool.false_or] at sound
  split at sound
  · next opcode format opcodeFound formatFound =>
    split at sound
    · next encoding found =>
      rw [Bool.and_eq_true, Bool.and_eq_true, List.contains_iff_mem] at sound
      exact ⟨opcode, format, encoding, opcodeFound, formatFound, found,
        sound.1.1, sound.1.2, sound.2⟩
    · cases sound
  · cases sound

theorem isReached_eq_true (xlen : Xlen) (opcode : Opcode) :
    isReached xlen opcode = true := by
  have sound := tableIsSound_eq_true xlen
  simp only [tableIsSound, Bool.and_eq_true] at sound
  have reached :=
    List.all_eq_true.mp sound.2 opcode.id
      (List.mem_range.mpr (by cases opcode <;> decide))
  have same : Opcode.ofNat opcode.id = opcode := by cases opcode <;> rfl
  rwa [same] at reached

/-! ## Decoding, then encoding -/

theorem run_eq_eval
    (xlen : Xlen)
    (features : Features)
    {word : Word}
    (four : word.size = 4) :
    (isa xlen).run table word features =
      program.eval (isa xlen) features word := by
  refine (isa xlen).run_toTable_of_validate features validate_table ?_
  rw [Word.width, four]

/-- What decodes in earnest is encoded in the same word. -/
theorem encode?_of_run
    {xlen : Xlen}
    {features : Features}
    {word : Word}
    (four : word.size = 4)
    {raw : RawInstruction}
    (decoded : (isa xlen).run table word features = .ok raw)
    (success : raw.status = .success)
    (notFence : raw.opcode ≠ Opcode.fence.id) :
    ∃ opcode mode,
      Opcode.ofId? raw.opcode = some opcode ∧
        raw.specifics = .riscV mode ∧
        opcode.encode? xlen raw.operands mode = some word.value := by
  rw [run_eq_eval xlen features four] at decoded
  rcases exists_path_of_success decoded success with
    ⟨path, member, holds, possible, formatNumber, zeros, ones, ending, met,
      finished⟩
  rcases exists_encoding_of_mem_paths member possible ending notFence with
    ⟨opcode, format, encoding, opcodeFound, formatFound, found, wellFormed,
      readable, judged⟩
  rcases exists_reading_of_finishDecode formatFound finished with
    ⟨result, read, sameOperands, sameSpecifics⟩
  have fixed : encoding.Matches word.value := by
    rw [Encoding.Matches, List.all_eq_true]
    intro guard tested
    have verdict := List.all_eq_true.mp judged guard tested
    rw [decide_eq_true_eq] at verdict
    exact Guard.holds_of_verdict (Path.agrees_fixedBits holds ending met)
      (by simp) verdict
  rw [Encoding.read_of_mem_formats readable] at read
  rcases Encoding.recovers_of_read wellFormed four fixed read with
    ⟨-, mode, sameMode, encoded⟩
  refine ⟨opcode, mode, opcodeFound, sameSpecifics.trans sameMode, ?_⟩
  rw [Opcode.encode?, found, sameOperands]
  exact encoded

/-! ## Encoding, then decoding -/

section Encoded

variable
  {xlen : Xlen}
  {features : Features}
  {opcode : Opcode}
  {encoding : Encoding}
  (admitted : opcode.admitted xlen features)
  (found : opcode.encoding? xlen = some encoding)
include admitted found

/-- The encoding of an admitted opcode leads along one path to the opcode. -/
theorem exists_path_of_encoding :
    encoding.wellFormed ∧
      ∃ path format zeros ones,
        program.paths.find?
            (Path.possible (Path.knownBy encoding.tests)
              (opcode.foresees xlen)) = some path ∧
          path.certain (Path.knownBy encoding.tests)
            (opcode.foresees xlen) ∧
          format ∈ encoding.formats xlen ∧
          path.ending = .decode opcode.id format.id zeros ones ∧
          (Path.knownBy encoding.tests).meets zeros ones := by
  have reached := isReached_eq_true xlen opcode
  have admissible :
      (xlen = .rv32 && opcode.requirements.contains .rv64) = false := by
    rw [Bool.and_eq_false_iff]
    cases xlen with
    | rv64 => exact .inl rfl
    | rv32 =>
        refine .inr ?_
        rw [← Bool.not_eq_true, List.contains_iff_mem]
        intro member
        have met := List.all_eq_true.mp admitted _ member
        cases met
  simp only [isReached, found, admissible, Bool.false_or,
    Bool.and_eq_true] at reached
  rcases reached with ⟨wellFormed, led⟩
  refine ⟨wellFormed, ?_⟩
  split at led
  · cases led
  · next path first =>
    rw [Bool.and_eq_true] at led
    rcases led with ⟨certain, ends⟩
    split at ends
    · cases ends
    · next number formatNumber zeros ones ending =>
      simp only [Bool.and_eq_true, List.any_eq_true, decide_eq_true_eq]
        at ends
      rcases ends with ⟨⟨rfl, meets⟩, format, readable, rfl⟩
      exact ⟨path, format, zeros, ones, first, certain, readable, ending,
        meets⟩

/-- A word that represents operands decodes to the opcode and the operands. -/
theorem run_of_represents
    {operands : List Operand}
    {mode : Option RoundingMode}
    {word : Word}
    (four : word.size = 4)
    (represented :
      encoding.Represents xlen word.address operands mode word.value) :
    (isa xlen).run table word features =
      .ok
        { opcode := opcode.id
          operands
          status := .success
          specifics := .riscV mode } := by
  rcases exists_path_of_encoding admitted found with
    ⟨-, path, format, zeros, ones, first, certain, readable, ending, meets⟩
  rcases represented with ⟨-, fixed, reads⟩
  have agrees : (Path.knownBy encoding.tests).Agrees word.value :=
    Path.agrees_knownBy fixed
  have taken :
      program.paths.find?
          (Path.holds ((isa xlen).grants · features) word.value) =
        some path :=
    Path.find?_holds_of_possible agrees
      (fun _ _ => Opcode.grants_of_foresees admitted) first certain
  have read :
      (isa xlen).readOperands format.id word =
        .ok { operands, specifics := .riscV mode } := by
    rw [← reads word four rfl rfl, ← Encoding.read_of_mem_formats readable]
    simp [isa]
  rw [run_eq_eval xlen features four, Program.eval,
    Program.eval?_eq_firstOutcome?, Path.firstOutcome?, taken]
  simp only [Option.map_some, Option.getD_some, ending, Ending.outcome,
    Isa.finishDecode, read, agrees.not_violates meets]
  rfl

end Encoded

/--
Decoding with the table and encoding with the manual are inverse: what decodes
in earnest to an opcode other than the fence is encoded in the same word, and
the word of operands in range decodes in earnest to the opcode and the
operands.
-/
theorem inverse_encode? (xlen : Xlen) (features : Features) :
    (∀ word : Word, word.size = 4 →
      ∀ raw, (isa xlen).run table word features = .ok raw →
        raw.status = .success → raw.opcode ≠ Opcode.fence.id →
          ∃ opcode mode,
            Opcode.ofId? raw.opcode = some opcode ∧
              raw.specifics = .riscV mode ∧
              opcode.encode? xlen raw.operands mode = some word.value) ∧
      ∀ opcode, names opcode → opcode ≠ .fence →
        opcode.admitted xlen features →
          ∃ encoding,
            opcode.encoding? xlen = some encoding ∧
              ∀ address operands mode,
                encoding.Fits xlen address operands mode →
                  ∃ value,
                    value < 2 ^ 32 ∧
                      opcode.encode? xlen operands mode = some value ∧
                      ∀ word : Word,
                        word.size = 4 → word.address = address →
                          word.value = value →
                          (isa xlen).run table word features =
                            .ok
                              { opcode := opcode.id
                                operands
                                status := .success
                                specifics := .riscV mode } := by
  constructor
  · intro word four raw decoded success notFence
    exact encode?_of_run four decoded success notFence
  · intro opcode named notFence admitted
    rcases
        Option.isSome_iff_exists.mp
          (isSome_encoding?_of_names xlen named notFence) with
      ⟨encoding, found⟩
    refine ⟨encoding, found, ?_⟩
    intro address operands mode fits
    rcases exists_path_of_encoding admitted found with ⟨wellFormed, -⟩
    rcases Encoding.exists_encode?_of_fits wellFormed fits with
      ⟨value, encoded, represented⟩
    refine ⟨value, represented.1, ?_, ?_⟩
    · rw [Opcode.encode?, found]
      exact encoded
    · rintro word four rfl rfl
      exact run_of_represents admitted found four represented

/-- A word of `add x1, x2, x3`. -/
def addWord : Word :=
  ⟨[0xb3, 0x00, 0x31, 0x00], 0x1000, 0x003100b3, by simp, by decide⟩

/-- An addition decodes and is encoded again; a branch backwards decodes. -/
theorem inverse_encode?_add :
    (∃ opcode mode,
      Opcode.ofId? Opcode.add.id = some opcode ∧
        Specifics.riscV none = .riscV mode ∧
        opcode.encode? .rv64
            [Bank.integer.operand .rv64 1, Bank.integer.operand .rv64 2,
              Bank.integer.operand .rv64 3]
            mode =
          some 0x003100b3) ∧
      ∃ value,
        value < 2 ^ 32 ∧
          Opcode.beq.encode? .rv32
              [Bank.integer.operand .rv32 8, Bank.integer.operand .rv32 0,
                targetAt 0x1000 (-4096)]
              none =
            some value ∧
          ∀ word : Word,
            word.size = 4 → word.address = 0x1000 → word.value = value →
              (isa .rv32).run table word .empty =
                .ok
                  { opcode := Opcode.beq.id
                    operands :=
                      [Bank.integer.operand .rv32 8,
                        Bank.integer.operand .rv32 0,
                        targetAt 0x1000 (-4096)]
                    status := .success
                    specifics := .riscV none } := by
  constructor
  · exact (inverse_encode? .rv64 .all).1 addWord rfl
      { opcode := Opcode.add.id
        operands :=
          [Bank.integer.operand .rv64 1, Bank.integer.operand .rv64 2,
            Bank.integer.operand .rv64 3]
        status := .success
        specifics := .riscV none }
      rfl rfl (by decide)
  · obtain ⟨encoding, found, decodes⟩ :=
      (inverse_encode? .rv32 .empty).2 .beq (by rfl) (by decide)
        rfl
    cases found
    exact decodes 0x1000 _ none
      (.branch (by decide) (by decide) (by decide) (by decide) (by decide))

end Wide

end MachineCode.RiscV
