import MachineCode.Proofs.Arm64.Refusal
import MachineCode.Proofs.C64x.Refusal
import MachineCode.Proofs.Families
import MachineCode.Proofs.RiscV.Refusal
import MachineCode.Proofs.Table.Granting
import MachineCode.Proofs.Truncation

/-!
# Errors that a decoding may end with

A decoding of a family ends with an error about its input: the input is too
short, its leading bytes select no length or a length without instructions, no
instruction matches the word, or an operand is refused for what its fields
hold (`Architecture.MayFail`). It never ends with an error about the tables,
the formats or the opcodes of the family, and the error is always about the
address that was asked for (`mayFail_of_decodeWith`).
-/

namespace MachineCode

/-- The errors of a family for an input at an address. -/
inductive Architecture.MayFail
    (architecture : Architecture)
    (input : List UInt8)
    (address : Address) :
    DecodeError → Prop where
  /-- The input ends before the word, or its leading bytes, do. -/
  | short {needed : Nat} (short : input.length < needed) :
      MayFail architecture input address
        (.insufficientInput address needed input.length)
  /-- No instruction matches the word. -/
  | unknown {size : Nat} :
      MayFail architecture input address
        (.unknownOpcode address (input.take size))
  | refused {cause : OperandError} (fits : architecture.mayRefuse cause) :
      MayFail architecture input address (.invalidOperand address cause)
  /-- The leading bytes of RISC-V code select no length. -/
  | noLength {xlen : RiscV.Xlen}
      (isRiscV : architecture = xlen.architecture)
      (reserved : RiscV.wordSize? input = none) :
      MayFail architecture input address
        (.invalidEncoding address .reservedLength)
  /-- The leading bytes of RISC-V code select a length without instructions. -/
  | noInstructions {xlen : RiscV.Xlen} {size : Nat}
      (isRiscV : architecture = xlen.architecture)
      (selected : RiscV.wordSize? input = some size)
      (long : size = 6 ∨ size = 8) :
      MayFail architecture input address
        (.invalidEncoding address (.noTable size))

namespace Architecture

variable
  {architecture : Architecture}
  {input : List UInt8}
  {address : Address}

/-- Each of the errors is about the address that was asked for. -/
theorem MayFail.address?_eq
    {error : DecodeError}
    (mayFail : architecture.MayFail input address error) :
    error.address? = some address := by
  cases mayFail <;> rfl

end Architecture

/-! ## Reading the word -/

/-- An input that is long enough starts with a word. -/
theorem Word.exists_ofBytes?
    {order : ByteOrder}
    {size : Nat}
    {address : Address}
    {input : List UInt8}
    (positive : 0 < size)
    (small : size ≤ maxSize)
    (enough : size ≤ input.length) :
    ∃ word, ofBytes? order size address input = some word := by
  have nonempty : input.take size ≠ [] := by
    rw [← List.length_pos_iff, List.length_take_of_le enough]
    exact positive
  rw [ofBytes?, if_neg (by omega)]
  simp [nonempty]

/-- Only the first byte tells the length of RISC-V code. -/
theorem RiscV.wordSize?_take (input : List UInt8) :
    wordSize? (input.take 2) = wordSize? input := by
  cases input <;> rfl

theorem RiscV.mem_of_wordSize?
    {input : List UInt8}
    {size : Nat}
    (selected : wordSize? input = some size) :
    size ∈ [2, 4, 6, 8] := by
  cases input with
  | nil => cases selected
  | cons byte rest =>
      simp only [wordSize?] at selected
      repeat' split at selected
      all_goals cases selected
      all_goals decide

namespace Architecture

variable
  {architecture : Architecture}
  {isa : Isa}
  {input : List UInt8}
  {address : Address}
  {error : DecodeError}

/-- The size of a word is four, or selected by the bytes of RISC-V code. -/
theorem size?_cases
    (known : architecture.isa? = some isa) :
    isa.widthRule.size? input = some 4 ∨
      ∃ xlen : RiscV.Xlen,
        architecture = xlen.architecture ∧
          isa.widthRule.size? input = RiscV.wordSize? input := by
  cases architecture with
  | arm64 | c64x =>
      cases known
      exact .inl rfl
  | riscV64 =>
      cases known
      exact .inr ⟨.rv64, rfl, RiscV.wordSize?_take input⟩
  | riscV32 =>
      cases known
      exact .inr ⟨.rv32, rfl, RiscV.wordSize?_take input⟩
  | unknown => cases known

theorem size?_pos
    (known : architecture.isa? = some isa)
    {size : Nat}
    (selected : isa.widthRule.size? input = some size) :
    0 < size := by
  rcases @size?_cases _ _ input known with four | ⟨xlen, -, sized⟩
  · cases four.symm.trans selected
    decide
  · have member := RiscV.mem_of_wordSize? (sized.symm.trans selected)
    simp only [List.mem_cons, List.not_mem_nil, or_false] at member
    omega

/-- A word cannot be read from a short input or a reserved length. -/
theorem mayFail_of_readWord
    (known : architecture.isa? = some isa)
    (failed :
      isa.widthRule.readWord isa.byteOrder input address = .error error) :
    architecture.MayFail input address error := by
  cases enough : isa.widthRule.needed? input with
  | some needed =>
      rw [WidthRule.readWord_of_needed? enough] at failed
      cases failed
      exact .short (WidthRule.length_lt_of_needed? enough)
  | none =>
      rw [WidthRule.readWord_of_enough enough] at failed
      rcases WidthRule.needed?_eq_none_iff.mp enough with ⟨-, fits⟩
      cases selected : isa.widthRule.size? input with
      | none =>
          rw [selected] at failed
          cases failed
          rcases @size?_cases _ _ input known with
            four | ⟨xlen, isRiscV, sized⟩
          · cases four.symm.trans selected
          · exact .noLength isRiscV (sized.symm.trans selected)
      | some size =>
          rcases @Word.exists_ofBytes? isa.byteOrder size address input
              (size?_pos known selected)
              ((atMost_widthRule known).size_le selected)
              (fits size selected) with
            ⟨word, read⟩
          simp only [selected, read] at failed
          cases failed

end Architecture

/-! ## Running the table -/

/-- Whether the paths of a program name formats of a kind. -/
def Path.readsIn (expected : Nat → Bool) (path : Path) : Bool :=
  match path.ending with
  | .decode _ format _ _ => expected format
  | .fail => true

theorem Arm64.readsIn_of_mem :
    ∀ path ∈ program.paths,
      path.readsIn fun number => (Format.ofId? number).isSome := by
  decide +kernel

theorem C64x.readsIn_of_mem :
    ∀ path ∈ program.paths,
      path.readsIn fun number => (Format.ofId? number).isSome := by
  decide +kernel

/-- A program ends with no instruction, or with an operand that is refused. -/
theorem Program.eq_unknown_or_refused
    {isa : Isa}
    {features : Features}
    {word : Word}
    {program : Program}
    {error : DecodeError}
    (failed : program.eval isa features word = .error error) :
    error = .unknownOpcode word.address word.bytes ∨
      ∃ path ∈ program.paths, ∃ opcode format zeros ones cause,
        path.ending = .decode opcode format zeros ones ∧
          isa.readOperands format word = .error cause ∧
          error = .invalidOperand word.address cause := by
  by_cases unknown : program.eval isa features word = word.unknown
  · rw [unknown] at failed
    cases failed
    exact .inl rfl
  · rcases Program.exists_path_of_eval_ne_unknown unknown with
      ⟨path, found, decodes, outcome⟩
    rw [outcome] at failed
    cases ending : path.ending with
    | fail =>
        rw [Path.decodes, ending] at decodes
        cases decodes
    | decode opcode format zeros ones =>
        rw [ending, Ending.outcome, Isa.finishDecode] at failed
        split at failed
        · next cause refused =>
          cases failed
          exact .inr ⟨path, List.mem_of_find?_eq_some found, opcode, format,
            zeros, ones, cause, ending, refused, rfl⟩
        · cases failed

section Refusals

variable
  {word : Word}
  {path : Path}
  {opcode number zeros ones : Nat}
  {cause : OperandError}

theorem Arm64.mayRefuse_of_mem
    (four : word.size = 4)
    (member : path ∈ program.paths)
    (ending : path.ending = .decode opcode number zeros ones)
    (refused : isa.readOperands number word = .error cause) :
    Architecture.arm64.mayRefuse cause := by
  have named := readsIn_of_mem path member
  rw [Path.readsIn, ending] at named
  rcases Option.isSome_iff_exists.mp named with ⟨format, named⟩
  simp only [isa, named] at refused
  exact (format.refuses_read four).admits_of_eq_error refused

theorem C64x.mayRefuse_of_mem
    (four : word.size = 4)
    (member : path ∈ program.paths)
    (ending : path.ending = .decode opcode number zeros ones)
    (refused : isa.readOperands number word = .error cause) :
    Architecture.c64x.mayRefuse cause := by
  have named := readsIn_of_mem path member
  rw [Path.readsIn, ending] at named
  rcases Option.isSome_iff_exists.mp named with ⟨format, named⟩
  simp only [isa, named] at refused
  exact (format.refuses_read four).admits_of_eq_error refused

/-- A path names a format of the words that the table is for. -/
theorem RiscV.exists_format_of_isShaped
    {expected : Format → Bool}
    (shaped : pathIsShaped expected path)
    (ending : path.ending = .decode opcode number zeros ones) :
    ∃ format, Format.ofId? number = some format ∧ expected format := by
  simp only [pathIsShaped, ending] at shaped
  split at shaped
  · next format _ named =>
    simp only [Bool.and_eq_true] at shaped
    exact ⟨format, named, shaped.1.1.1⟩
  · cases shaped

theorem RiscV.mayRefuse_of_mem
    {xlen : Xlen}
    {program : Program}
    (found : xlen.architecture.program? word.size = some program)
    (member : path ∈ program.paths)
    (ending : path.ending = .decode opcode number zeros ones)
    (refused : (isa xlen).readOperands number word = .error cause) :
    xlen.architecture.mayRefuse cause := by
  have refusesRead (format : Format)
      (named : Format.ofId? number = some format)
      (fails : Refuses xlen (format.read xlen word)) :
      xlen.architecture.mayRefuse cause := by
    simp only [isa, named] at refused
    exact fails.admits_of_eq_error refused
  rcases program?_cases found with ⟨two, rfl⟩ | ⟨four, rfl⟩
  · rcases exists_format_of_isShaped
        (Compressed.isShaped_of_mem path member) ending with
      ⟨format, named, short⟩
    exact refusesRead format named (refuses_readShort two short)
  · rcases exists_format_of_isShaped
        (Wide.isShaped_of_mem path member) ending with
      ⟨format, named, long⟩
    exact refusesRead format named (refuses_readLong four long)

/-- The formats of a program refuse a word only for what its fields hold. -/
theorem Architecture.mayRefuse_of_mem
    {architecture : Architecture}
    {isa : Isa}
    (known : architecture.isa? = some isa)
    {program : Program}
    (found : architecture.program? word.size = some program)
    (member : path ∈ program.paths)
    (ending : path.ending = .decode opcode number zeros ones)
    (refused : isa.readOperands number word = .error cause) :
    architecture.mayRefuse cause := by
  cases architecture with
  | arm64 =>
      cases known
      rcases Option.ite_none_right_eq_some.mp found with ⟨four, isProgram⟩
      cases isProgram
      exact Arm64.mayRefuse_of_mem four member ending refused
  | riscV64 =>
      cases known
      exact @RiscV.mayRefuse_of_mem _ _ _ _ _ _ _ .rv64 _ found member ending
        refused
  | riscV32 =>
      cases known
      exact @RiscV.mayRefuse_of_mem _ _ _ _ _ _ _ .rv32 _ found member ending
        refused
  | c64x =>
      cases known
      rcases Option.ite_none_right_eq_some.mp found with ⟨four, isProgram⟩
      cases isProgram
      exact C64x.mayRefuse_of_mem four member ending refused
  | unknown => cases known

end Refusals

namespace Architecture

variable
  {architecture : Architecture}
  {isa : Isa}
  {options : Options}
  {word : Word}
  {input : List UInt8}
  {address : Address}
  {error : DecodeError}

/-- Words without a table are long RISC-V words. -/
theorem mayFail_of_program?_eq_none
    (known : architecture.isa? = some isa)
    (sized : isa.widthRule.size? input = some word.size)
    (nothing : architecture.program? word.size = none) :
    architecture.MayFail input address
      (.invalidEncoding address (.noTable word.size)) := by
  rcases @size?_cases _ _ input known with four | ⟨xlen, isRiscV, same⟩
  · have four := Option.some.inj (sized.symm.trans four)
    rw [four] at nothing
    cases architecture with
    | unknown => cases known
    | _ => cases nothing
  · have selected := same.symm.trans sized
    refine .noInstructions isRiscV selected ?_
    have member := RiscV.mem_of_wordSize? selected
    simp only [List.mem_cons, List.not_mem_nil, or_false] at member
    rw [isRiscV] at nothing
    rcases member with two | four | long
    · rw [two] at nothing
      cases xlen <;> cases nothing
    · rw [four] at nothing
      cases xlen <;> cases nothing
    · exact long

/-- A word is not matched, or refused for what its fields hold. -/
theorem mayFail_of_decodeRaw
    (known : architecture.isa? = some isa)
    (heads : word.Heads input address)
    (sized : isa.widthRule.size? input = some word.size)
    (failed : Engine.decodeRaw ⟨isa, options⟩ word = .error error) :
    architecture.MayFail input address error := by
  have place := heads.address_eq
  subst place
  rw [decodeRaw_eq known] at failed
  cases found : architecture.program? word.size with
  | none =>
      rw [found] at failed
      cases failed
      exact mayFail_of_program?_eq_none known sized found
  | some program =>
      rw [found] at failed
      rcases Program.eq_unknown_or_refused failed with
        rfl | ⟨path, member, opcode, number, zeros, ones, cause, ending,
          refused, rfl⟩
      · rw [heads.bytes_eq]
        exact .unknown
      · exact .refused (mayRefuse_of_mem known found member ending refused)

/-- The preferred form of what has been decoded is described. -/
theorem exists_detailOf?
    (known : architecture.isa? = some isa)
    {raw : RawInstruction}
    (decoded : Engine.decodeRaw ⟨isa, options⟩ word = .ok raw) :
    ∃ detail,
      isa.detailOf? (Alias.canonicalize isa.aliases raw.form) raw.specifics =
        some detail := by
  cases architecture with
  | arm64 =>
      cases known
      rcases Arm64.exists_keepsStorage decoded with
        ⟨_, detail, -, preferred, -⟩
      exact ⟨detail, preferred⟩
  | riscV64 | riscV32 =>
      cases known
      rcases RiscV.exists_keepsStorage decoded with
        ⟨_, detail, -, preferred, -⟩
      exact ⟨detail, preferred⟩
  | c64x =>
      cases known
      rcases C64x.exists_keepsStorage decoded with
        ⟨_, detail, -, preferred, -⟩
      exact ⟨detail, preferred⟩
  | unknown => cases known

end Architecture

/--
A decoding that fails does so for one of the reasons that its family has, all
of which are about the input, and the error has the address of the input.
-/
theorem Engine.mayFail_of_decodeWith
    {architecture : Architecture}
    {engine : Engine}
    (known : architecture.isa? = some engine.isa)
    {input : List UInt8}
    {address : Address}
    {wantDetail : Bool}
    {error : DecodeError}
    (failed :
      engine.decodeWith input address wantDetail = .error error) :
    architecture.MayFail input address error ∧
      error.address? = some address := by
  suffices mayFail : architecture.MayFail input address error from
    ⟨mayFail, mayFail.address?_eq⟩
  rcases engine with ⟨isa, options⟩
  rw [decodeWith] at failed
  cases read : Engine.readWord ⟨isa, options⟩ input address with
  | error fault =>
      rw [read] at failed
      cases failed
      exact Architecture.mayFail_of_readWord known read
  | ok word =>
      rw [read] at failed
      change Engine.decodeWord ⟨isa, options⟩ word wantDetail = _ at failed
      rw [decodeWord] at failed
      split at failed
      · next unread =>
        cases failed
        exact Architecture.mayFail_of_decodeRaw known
          (WidthRule.heads_of_readWord read)
          (WidthRule.size?_of_readWord read) unread
      · next raw decoded =>
        rcases Architecture.exists_detailOf? known decoded with
          ⟨detail, described⟩
        rcases Option.map_eq_some_iff.mp described with ⟨info, named, -⟩
        rw [finishRaw, named] at failed
        cases failed

/-- Bytes that select a length of eight. -/
def eightByteInput : List UInt8 :=
  [0x3f, 0, 0, 0, 0, 0, 0, 0]

/-- No instruction of RISC-V has eight bytes. -/
theorem Engine.mayFail_of_decodeWith_eightBytes :
    Architecture.riscV64.isa? = some (RiscV.isa .rv64) ∧
      Engine.decodeWith ⟨RiscV.isa .rv64, {}⟩ eightByteInput 0x1000 false =
        .error (.invalidEncoding 0x1000 (.noTable 8)) ∧
      Architecture.riscV64.MayFail eightByteInput 0x1000
        (.invalidEncoding 0x1000 (.noTable 8)) ∧
      DecodeError.address? (.invalidEncoding 0x1000 (.noTable 8)) =
        some 0x1000 := by
  have known :
      Architecture.riscV64.isa? = some (RiscV.isa .rv64) := rfl
  have failed :
      Engine.decodeWith ⟨RiscV.isa .rv64, {}⟩ eightByteInput 0x1000 false =
        .error (.invalidEncoding 0x1000 (.noTable 8)) := rfl
  exact ⟨known, failed, Engine.mayFail_of_decodeWith known failed⟩

end MachineCode
