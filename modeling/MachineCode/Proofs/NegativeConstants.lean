import MachineCode.Proofs.RegisterNames
import MachineCode.Proofs.RiscV.Shape
import MachineCode.Proofs.Text

/-!
# Negative constants without a sign

Where a user wants no signs, a negative constant is printed by the bits of its
two's complement. Their number is one of the assembly language, not of the
instruction (`Architecture.constantBits`): the C64x prints the 32 bits that
its registers have, the others print 64. So a constant beside registers of 32
bits is printed with the bits of the register on the C64x only
(`Architecture.Exceeds`).
-/

namespace MachineCode

/-! ## Listed parts -/

namespace Text

/--
Whether a text lists parts, joined by commas. What stands before them ends
with a blank, and what stands behind them starts with a comma or a blank.
-/
def Lists (text : String) (parts : List String) : Prop :=
  ∃ before after : List Char,
    text.toList = before ++ (", ".intercalate parts).toList ++ after ∧
      Starts ' ' before.reverse ∧
      (Starts ',' after ∨ Starts ' ' after)

theorem Starts.append
    {α : Type}
    {separator : α}
    {left right : List α}
    (leftStarts : Starts separator left)
    (rightStarts : Starts separator right) :
    Starts separator (left ++ right) := by
  cases left with
  | nil => exact rightStarts
  | cons => exact leftStarts

theorem lists_intercalate (parts : List String) :
    Lists (", ".intercalate parts) parts :=
  ⟨[], [], by simp, starts_nil ' ', .inl (starts_nil ',')⟩

/-- The first parts of a list are listed. -/
theorem lists_intercalate_append
    {parts : List String}
    (nonempty : parts ≠ [])
    (more : List String) :
    Lists (", ".intercalate (parts ++ more)) parts :=
  ⟨[], joinedTail more, toList_intercalate_append nonempty more,
    starts_nil ' ', .inl (starts_joinedTail more)⟩

namespace Lists

variable
  {text : String}
  {parts : List String}

theorem blank_before (lists : Lists text parts) (leading : String) :
    Lists (leading ++ " " ++ text) parts := by
  rcases lists with ⟨before, after, splits, ends, starts⟩
  refine ⟨leading.toList ++ ' ' :: before, after, ?_, ?_, starts⟩
  · simp [splits]
  · rw [List.reverse_append, List.reverse_cons, List.append_assoc]
    exact ends.append (starts_cons ' ' _)

theorem blank_behind (lists : Lists text parts) (trailing : String) :
    Lists (text ++ " " ++ trailing) parts := by
  rcases lists with ⟨before, after, splits, ends, starts⟩
  refine ⟨before, after ++ ' ' :: trailing.toList, ?_, ends, ?_⟩
  · simp [splits]
  · cases after with
    | nil => exact .inr (starts_cons ' ' _)
    | cons => exact starts

/-- What is joined to a text with a blank leaves the parts as they are. -/
theorem joinParts
    (lists : Lists text parts)
    (shown : text ≠ "")
    (leading trailing : String) :
    Lists (C64x.joinParts (C64x.joinParts leading text) trailing) parts := by
  have visible : ¬ text.isEmpty := by
    rwa [String.isEmpty_iff]
  have behind :
      Lists (C64x.joinParts leading text) parts ∧
        ¬ (C64x.joinParts leading text).isEmpty := by
    rw [C64x.joinParts]
    split
    · exact ⟨lists, visible⟩
    · exact ⟨lists.blank_before leading, by simp [String.isEmpty_iff]⟩
  rw [C64x.joinParts, if_neg behind.2]
  split
  · exact behind.1
  · exact behind.1.blank_behind trailing

end Lists

end Text

/-! ## Assembly languages -/

namespace Architecture

/-- One operand of an opcode, as it is printed. -/
def operandText
    (architecture : Architecture)
    (opcode : Nat)
    (options : Options) :
    Operand → String :=
  match architecture with
  | .arm64 => Arm64.operandText options
  | .riscV64 | .riscV32 =>
    RiscV.operandTextOf (RiscV.Opcode.ofId? opcode) options
  | .c64x => C64x.operandText (opcode = C64x.Opcode.mvkh.id) options
  | .unknown _ => Operand.text

/-- What is printed before a constant. -/
def constantMark : Architecture → String
  | .arm64 => "#"
  | _ => ""

/-- The number of bits by which a negative constant is printed. -/
def constantBits : Architecture → Nat
  | .c64x => 32
  | _ => 64

/-- Whether these are more bits than there are in registers of a width. -/
def Exceeds (architecture : Architecture) (width : Nat) : Prop :=
  architecture ≠ .c64x ∧ width = 32

instance (architecture : Architecture) (width : Nat) :
    Decidable (architecture.Exceeds width) :=
  inferInstanceAs (Decidable (_ ∧ _))

variable
  {architecture : Architecture}
  {isa : Isa}

/-- The text of an instruction lists the texts of its operands. -/
theorem lists_render
    (known : architecture.isa? = some isa)
    {form : Form}
    {specifics : Specifics}
    {options : Options}
    {operand : Operand}
    (member : operand ∈ form.operands)
    (shown : architecture.operandText form.opcode options operand ≠ "") :
    Text.Lists (isa.render form specifics options).operandText
      (form.operands.map (architecture.operandText form.opcode options)) := by
  have listed :
      architecture.operandText form.opcode options operand ∈
        form.operands.map (architecture.operandText form.opcode options) :=
    List.mem_map_of_mem member
  cases architecture with
  | arm64 =>
      cases known
      exact Text.lists_intercalate _
  | riscV64 | riscV32 =>
      cases known
      exact Text.lists_intercalate_append (List.ne_nil_of_mem listed) _
  | c64x =>
      cases known
      cases specifics with
      | c64x facts =>
          exact (Text.lists_intercalate _).joinParts
            (Text.intercalate_ne_empty listed shown) _ _
      | _ => exact Text.lists_intercalate _
  | unknown => cases known

/-- The width of a general register tells the bits of constants. -/
theorem Owns.constantBits_eq
    {register : Register}
    (owned : architecture.Owns register)
    (isGeneral : register.kind = .general) :
    architecture.constantBits =
      if architecture.Exceeds register.size then 64 else register.size := by
  cases architecture with
  | arm64 =>
      cases owned with
      | general address wide small =>
          rw [Arm64.generalRegister_size]
          cases wide <;> rfl
      | float | vector | flags => cases isGeneral
  | riscV64 | riscV32 =>
      rw [RiscV.Xlen.Owns.size_eq owned isGeneral]
      rfl
  | c64x =>
      rw [C64x.Owns.size_eq owned]
      rfl
  | unknown => cases owned

end Architecture

/-! ## The text of a negative constant -/

section Printed

variable
  {options : Options}
  {constant : Immediate}
  (unsigned : options.unsignedImmediates)
  (negative : constant.value < 0)
include unsigned negative

theorem Arm64.operandText_negative :
    Arm64.operandText options (.immediate constant) =
      "#" ++ Text.hex (twosComplement constant.value 64) := by
  simp [Arm64.operandText, Arm64.constantText, unsigned, negative]

theorem RiscV.operandTextOf_negative
    {opcode : Option RiscV.Opcode}
    (ordered : opcode ≠ some .fence) :
    RiscV.operandTextOf opcode options (.immediate constant) =
      Text.hex (twosComplement constant.value 64) := by
  unfold RiscV.operandTextOf
  split
  · exact absurd rfl ordered
  · rfl
  · rfl
  · rfl
  · simp [RiscV.operandText, RiscV.immediateText, Immediate.toUnsigned64,
      unsigned, negative]

theorem C64x.operandText_negative (hexadecimal : Bool) :
    C64x.operandText hexadecimal options (.immediate constant) =
      Text.hex (twosComplement constant.value 32) := by
  simp [C64x.operandText, C64x.immediateText, unsigned, negative]

end Printed

/-- The sets of a fence are no negative constants. -/
theorem RiscV.nonneg_of_fence
    {xlen : RiscV.Xlen}
    {options : Options}
    {input : List UInt8}
    {address : Address}
    {wantDetail : Bool}
    {decoded : Decoded}
    (success :
      Engine.decodeWith ⟨RiscV.isa xlen, options⟩ input address wantDetail =
        .ok decoded)
    (isFence : decoded.instruction.opcode = some RiscV.Opcode.fence.id)
    {constant : Immediate}
    (member : .immediate constant ∈ decoded.instruction.operands) :
    0 ≤ constant.value := by
  rcases Engine.exists_word_of_decodeWith success with ⟨word, -, success⟩
  rcases RiscV.exists_admits_of_decodeWord success with
    ⟨opcode, operands, specifics, shape, shaped, admits, described⟩
  rw [described] at isFence member
  cases RiscV.Opcode.id_injective (Option.some.inj isFence)
  have sets :
      RiscV.Opcode.fence.shape? xlen =
        some ⟨[.unsigned 4, .unsigned 4], false⟩ := by
    cases xlen <;> decide +kernel
  rw [sets, Option.some.injEq] at shaped
  subst shaped
  cases admits.operands with
  | cons first rest =>
    cases rest with
    | cons second rest =>
      cases rest
      cases first
      cases second
      simp only [Engine.describe, Operand.unsigned, List.mem_cons,
        Operand.immediate.injEq, List.not_mem_nil, or_false] at member
      rcases member with rfl | rfl <;> exact Int.natCast_nonneg _

/-! ## Instructions -/

namespace Instruction

/-- The general registers among the operands of an instruction. -/
def generalOperands (instruction : Instruction) : List Register :=
  (instruction.operands.flatMap Operand.directRegisters).filter
    fun register => register.kind = .general

/-- Whether there are such registers, all of one width. -/
structure HasWidth (instruction : Instruction) (width : Nat) : Prop where
  nonempty : instruction.generalOperands ≠ []
  size_eq : ∀ register ∈ instruction.generalOperands, register.size = width

end Instruction

theorem Operand.mem_mentions_of_mem_directRegisters
    {operand : Operand}
    {register : Register}
    (named : register ∈ operand.directRegisters) :
    register ∈ operand.mentions := by
  cases operand with
  | memory => cases named
  | _ => exact named

/-- Whether detail is wanted makes no difference to the operands. -/
theorem Engine.exists_decodeWith_detail
    {engine : Engine}
    {input : List UInt8}
    {address : Address}
    {wantDetail : Bool}
    {decoded : Decoded}
    (success : engine.decodeWith input address wantDetail = .ok decoded) :
    ∃ detailed,
      engine.decodeWith input address true = .ok detailed ∧
        detailed.instruction.operands = decoded.instruction.operands := by
  rcases exists_word_of_decodeWith success with ⟨word, first, success⟩
  rcases exists_describe_of_decodeWord success with
    ⟨raw, info, read, described, rfl⟩
  simp only [decodeWith, first, decodeWord, read, finishRaw, described]
  exact ⟨_, rfl, rfl⟩

section Decoded

variable
  {architecture : Architecture}
  {isa : Isa}
  (known : architecture.isa? = some isa)
  {options : Options}
  {input : List UInt8}
  {address : Address}
  {wantDetail : Bool}
  {decoded : Decoded}
  (success :
    Engine.decodeWith ⟨isa, options⟩ input address wantDetail = .ok decoded)
include known success

theorem Architecture.owns_of_mem_generalOperands
    {register : Register}
    (member : register ∈ decoded.instruction.generalOperands) :
    architecture.Owns register := by
  rcases Engine.exists_decodeWith_detail success with
    ⟨detailed, successToo, same⟩
  rcases Architecture.exists_isDescribed known successToo with
    ⟨info, detail, described⟩
  rcases List.mem_flatMap.mp (List.mem_filter.mp member).1 with
    ⟨operand, inside, named⟩
  rw [← same] at inside
  exact described.suits.owns_of_mem (List.mem_flatMap.mpr
    ⟨operand, inside, Operand.mem_mentions_of_mem_directRegisters named⟩)

theorem Instruction.HasWidth.constantBits_eq
    {width : Nat}
    (hasWidth : decoded.instruction.HasWidth width) :
    architecture.constantBits =
      if architecture.Exceeds width then 64 else width := by
  rcases List.exists_mem_of_ne_nil _ hasWidth.nonempty with
    ⟨register, member⟩
  have owned := Architecture.owns_of_mem_generalOperands known success member
  have isGeneral := of_decide_eq_true (List.mem_filter.mp member).2
  rw [owned.constantBits_eq isGeneral, hasWidth.size_eq register member]

theorem Architecture.operandText_negative
    (unsigned : options.unsignedImmediates)
    {opcode : Nat}
    (named : decoded.instruction.opcode = some opcode)
    {constant : Immediate}
    (member : .immediate constant ∈ decoded.instruction.operands)
    (negative : constant.value < 0) :
    architecture.operandText opcode options (.immediate constant) =
      architecture.constantMark ++
        Text.hex (twosComplement constant.value architecture.constantBits) := by
  cases architecture with
  | arm64 => exact Arm64.operandText_negative unsigned negative
  | riscV64 | riscV32 =>
      cases known
      have ordered : RiscV.Opcode.ofId? opcode ≠ some .fence := by
        intro isFence
        rw [← RiscV.Opcode.id_of_ofId? isFence] at named
        exact absurd (RiscV.nonneg_of_fence success named member)
          (Int.not_le.mpr negative)
      exact (RiscV.operandTextOf_negative unsigned negative ordered).trans
        String.empty_append.symm
  | c64x =>
      exact (C64x.operandText_negative unsigned negative _).trans
        String.empty_append.symm
  | unknown => cases known

/--
A negative constant is printed by the bits of its two's complement where no
signs are wanted: by as many as the general registers of the instruction have,
or by 64 where the assembly language exceeds their width.
-/
theorem decodeWith_negative
    (unsigned : options.unsignedImmediates)
    {width : Nat}
    (hasWidth : decoded.instruction.HasWidth width)
    {constant : Immediate}
    (member : .immediate constant ∈ decoded.instruction.operands)
    (negative : constant.value < 0) :
    ∃ opcode,
      decoded.instruction.opcode = some opcode ∧
        Text.Lists decoded.instruction.operandText
          (decoded.instruction.operands.map
            (architecture.operandText opcode options)) ∧
        architecture.operandText opcode options (.immediate constant) =
          architecture.constantMark ++
            Text.hex (twosComplement constant.value
              (if architecture.Exceeds width then 64 else width)) := by
  have bits := hasWidth.constantBits_eq known success
  rcases Option.isSome_iff_exists.mp
      (Engine.heads_of_decodeWith success).isCode with
    ⟨opcode, named⟩
  have printed :=
    Architecture.operandText_negative known success unsigned named member
      negative
  refine ⟨opcode, named, ?lists, ?text⟩
  case text =>
    rw [printed, bits]
  case lists =>
    have shown :
        architecture.operandText opcode options (.immediate constant) ≠
          "" := by
      rw [printed, Ne, String.append_eq_empty_iff, not_and]
      exact fun _ => (Text.unbroken_hex _).nonempty
    rcases Engine.exists_word_of_decodeWith success with ⟨word, -, success⟩
    rcases Engine.exists_describe_of_decodeWord success with
      ⟨raw, info, read, described, rfl⟩
    cases named
    exact Architecture.lists_render known member shown

end Decoded

/-- Options of a user who wants no signs. -/
def withoutSigns : Options :=
  { unsignedImmediates := true }

/-- The bytes of `mvk .S1 -1, a4`. -/
def minusOneBytes : List UInt8 :=
  [0x02, 0x7f, 0xff, 0xa8]

set_option maxRecDepth 20000 in
/-- The C64x prints a negative constant by the 32 bits of its register. -/
theorem decodeWith_negative_minusOne :
    ∃ decoded opcode,
      Engine.decodeWith ⟨C64x.isa, withoutSigns⟩ minusOneBytes 0x1000
            false =
          .ok decoded ∧
        decoded.instruction.HasWidth 32 ∧
        decoded.instruction.operandText = ".S1 0xffffffff, a4" ∧
        decoded.instruction.opcode = some opcode ∧
        Text.Lists ".S1 0xffffffff, a4"
          (decoded.instruction.operands.map
            (Architecture.c64x.operandText opcode withoutSigns)) ∧
        Architecture.c64x.operandText opcode withoutSigns
            (.immediate ⟨-1, 16, true⟩) =
          "0xffffffff" := by
  obtain ⟨decoded, success, hasWidth, member, text⟩ :
      ∃ decoded,
        Engine.decodeWith ⟨C64x.isa, withoutSigns⟩ minusOneBytes 0x1000
              false =
            .ok decoded ∧
          decoded.instruction.HasWidth 32 ∧
          .immediate ⟨-1, 16, true⟩ ∈ decoded.instruction.operands ∧
          decoded.instruction.operandText = ".S1 0xffffffff, a4" :=
    ⟨_, rfl, ⟨by decide, by decide⟩, by decide, by decide⟩
  have known : Architecture.c64x.isa? = some C64x.isa := rfl
  rcases decodeWith_negative known success rfl hasWidth member (by decide) with
    ⟨opcode, named, lists, printed⟩
  rw [text] at lists
  exact ⟨decoded, opcode, success, hasWidth, text, named, lists,
    printed.trans (by decide)⟩

/-- The bytes of `addi a0, a0, -1`. -/
def narrowDecrementBytes : List UInt8 :=
  [0x13, 0x05, 0xf5, 0xff]

/-- The bytes of `mov w0, #-1`. -/
def narrowOnesBytes : List UInt8 :=
  [0x00, 0x00, 0x80, 0x12]

set_option maxRecDepth 20000 in
/--
On the narrow RISC-V and beside a narrow register of Arm64, a constant is
printed with 64 bits and not with the 32 of the registers.
-/
theorem decodeWith_negative_narrow :
    (∃ decoded,
      Engine.decodeWith ⟨RiscV.isa .rv32, withoutSigns⟩ narrowDecrementBytes
            0x1000 false =
          .ok decoded ∧
        decoded.instruction.HasWidth 32 ∧
        .immediate ⟨-1, 12, true⟩ ∈ decoded.instruction.operands ∧
        decoded.instruction.operandText = "a0, a0, 0xffffffffffffffff" ∧
        decoded.instruction.operandText ≠
          "a0, a0, " ++ Text.hex (twosComplement (-1) 32)) ∧
      ∃ decoded,
        Engine.decodeWith ⟨Arm64.isa, withoutSigns⟩ narrowOnesBytes 0x1000
              false =
            .ok decoded ∧
          decoded.instruction.HasWidth 32 ∧
          .immediate ⟨-1, 32, true⟩ ∈ decoded.instruction.operands ∧
          decoded.instruction.operandText = "w0, #0xffffffffffffffff" ∧
          decoded.instruction.operandText ≠
            "w0, #" ++ Text.hex (twosComplement (-1) 32) :=
  ⟨⟨_, rfl, ⟨by decide, by decide⟩, by decide, by decide, by decide⟩,
    ⟨_, rfl, ⟨by decide, by decide⟩, by decide, by decide, by decide⟩⟩

end MachineCode
