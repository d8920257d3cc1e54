import MachineCode.Proofs.Arm64.Touch
import MachineCode.Proofs.C64x.Touch
import MachineCode.Proofs.RiscV.PseudoTouch

/-!
# The preferred form of an instruction touches the same registers

The opcodes of preferred forms have descriptions of their own, with fewer
operands and registers that are touched without being named. For every family
and every word that decodes, the record of the preferred form lists the
storage that the record of the raw form lists
(`preferredForm_touches`). Registers that always hold zero are left aside,
and the spelling `zero` of a C64x difference no longer reads its source.
-/

namespace MachineCode

namespace Architecture

/-- The instruction set of a family. -/
def isa? : Architecture → Option Isa
  | .arm64 => some Arm64.isa
  | .riscV64 => some (RiscV.isa .rv64)
  | .riscV32 => some (RiscV.isa .rv32)
  | .c64x => some C64x.isa
  | .unknown _ => none

/-- The number of the register that always holds zero, if there is one. -/
def zeroRegister? : Architecture → Option Nat
  | .arm64 => some Arm64.zeroRegister
  | .riscV64 | .riscV32 => some RiscV.zeroRegister
  | .c64x | .unknown _ => none

/-- The registers that the preferred form of an instruction cancels. -/
def cancelled : Architecture → Form → List Register
  | .c64x, raw => C64x.cancelled raw
  | _, _ => []

/--
Whether the record of a preferred form lists the storage that the record of
the raw form lists, but for zero registers and what is cancelled.
-/
def KeepsStorage
    (architecture : Architecture)
    (raw : Form)
    (rawDetail detail : Detail) :
    Prop :=
  ∀ register : Register,
    architecture.zeroRegister? ≠ some register.id →
      rawDetail.writesRegister register = detail.writesRegister register ∧
        rawDetail.readsRegister register =
          (register.coveredBy (architecture.cancelled raw) ||
            detail.readsRegister register)

/-- What a family does that cancels nothing. -/
theorem keepsStorage_of_accessTo
    {architecture : Architecture}
    {number : Nat}
    (hasZero : architecture.zeroRegister? = some number)
    {raw : Form}
    (cancelsNothing : architecture.cancelled raw = [])
    {rawDetail detail : Detail}
    (same :
      ∀ register : Register, register.id ≠ number →
        detail.accessTo register = rawDetail.accessTo register) :
    architecture.KeepsStorage raw rawDetail detail := by
  intro register counts
  rw [hasZero] at counts
  have alike := same register fun isZero => counts (congrArg some isZero.symm)
  rw [cancelsNothing]
  exact ⟨(congrArg Access.writes alike).symm,
    (congrArg Access.reads alike).symm⟩

end Architecture

section Families

variable {options : Options} {word : Word} {raw : RawInstruction}

/-- An instruction set with one table, for words of four bytes. -/
theorem Engine.run_of_decodeRaw
    {isa : Isa}
    {table : Table}
    (single :
      ∀ size, isa.table? size = if size = 4 then some table else none)
    (decoded : Engine.decodeRaw ⟨isa, options⟩ word = .ok raw) :
    word.size = 4 ∧ isa.run table word options.features = .ok raw := by
  rw [Engine.decodeRaw] at decoded
  split at decoded
  · cases decoded
  · next found other =>
    rw [single, Option.ite_none_right_eq_some] at other
    rcases other with ⟨four, isTable⟩
    cases isTable
    exact ⟨four, decoded⟩

theorem Arm64.exists_keepsStorage
    (decoded : Engine.decodeRaw ⟨isa, options⟩ word = .ok raw) :
    ∃ rawDetail detail,
      isa.detailOf? raw.form raw.specifics = some rawDetail ∧
        isa.detailOf? (Alias.canonicalize isa.aliases raw.form)
            raw.specifics =
          some detail ∧
        Architecture.arm64.KeepsStorage raw.form rawDetail detail := by
  rcases Engine.run_of_decodeRaw (fun _ => rfl) decoded with ⟨four, ran⟩
  rcases exists_details four ran with
    ⟨rawDetail, detail, described, preferred, same⟩
  exact ⟨rawDetail, detail, described, preferred,
    Architecture.keepsStorage_of_accessTo rfl rfl same⟩

theorem RiscV.exists_keepsStorage
    {xlen : Xlen}
    (decoded : Engine.decodeRaw ⟨isa xlen, options⟩ word = .ok raw) :
    ∃ rawDetail detail,
      (isa xlen).detailOf? raw.form raw.specifics = some rawDetail ∧
        (isa xlen).detailOf? (Alias.canonicalize (isa xlen).aliases raw.form)
            raw.specifics =
          some detail ∧
        xlen.architecture.KeepsStorage raw.form rawDetail detail := by
  rcases exists_details decoded with
    ⟨rawDetail, detail, described, preferred, same⟩
  refine ⟨rawDetail, detail, described, preferred, ?_⟩
  cases xlen <;> exact Architecture.keepsStorage_of_accessTo rfl rfl same

theorem C64x.exists_keepsStorage
    (decoded : Engine.decodeRaw ⟨isa, options⟩ word = .ok raw) :
    ∃ rawDetail detail,
      isa.detailOf? raw.form raw.specifics = some rawDetail ∧
        isa.detailOf? (Alias.canonicalize isa.aliases raw.form)
            raw.specifics =
          some detail ∧
        Architecture.c64x.KeepsStorage raw.form rawDetail detail := by
  rcases Engine.run_of_decodeRaw (fun _ => rfl) decoded with ⟨-, ran⟩
  rcases exists_details ran with
    ⟨rawDetail, detail, described, preferred, touches⟩
  refine ⟨rawDetail, detail, described, preferred, ?_⟩
  intro register _
  exact ⟨congrArg Access.writes (touches register),
    congrArg Access.reads (touches register)⟩

end Families

/--
An instruction that decodes is described, and so is its preferred form. The
record of the preferred form, which the decoded instruction carries, lists the
same storage as that of the raw form.
-/
theorem preferredForm_touches
    {architecture : Architecture}
    {isa : Isa}
    (known : architecture.isa? = some isa)
    {options : Options}
    {word : Word}
    {raw : RawInstruction}
    (decoded : Engine.decodeRaw ⟨isa, options⟩ word = .ok raw) :
    ∃ rawDetail detail result,
      isa.detailOf? raw.form raw.specifics = some rawDetail ∧
        isa.detailOf? (Alias.canonicalize isa.aliases raw.form)
            raw.specifics =
          some detail ∧
        Engine.decodeWord ⟨isa, options⟩ word true = .ok result ∧
        result.instruction.detail = some detail ∧
        architecture.KeepsStorage raw.form rawDetail detail := by
  obtain ⟨rawDetail, detail, described, preferred, keeps⟩ :
      ∃ rawDetail detail,
        isa.detailOf? raw.form raw.specifics = some rawDetail ∧
          isa.detailOf? (Alias.canonicalize isa.aliases raw.form)
              raw.specifics =
            some detail ∧
          architecture.KeepsStorage raw.form rawDetail detail := by
    cases architecture with
    | arm64 =>
        cases known
        exact Arm64.exists_keepsStorage decoded
    | riscV64 | riscV32 =>
        cases known
        exact RiscV.exists_keepsStorage decoded
    | c64x =>
        cases known
        exact C64x.exists_keepsStorage decoded
    | unknown => cases known
  rcases Engine.exists_decodeWord decoded preferred with
    ⟨result, finished, carried⟩
  exact ⟨rawDetail, detail, result, described, preferred, finished, carried,
    keeps⟩

/-- A word of `sub .L1 a1, a1, a2`. -/
def differenceWord : Word :=
  ⟨[0x01, 0x04, 0x20, 0xf8], 0x1000, 0x010420f8, by simp, by decide⟩

/-- What `differenceWord` decodes to. -/
def difference : RawInstruction where
  opcode := C64x.Opcode.sub.id
  operands :=
    [.register ⟨.c64x, .general, 1, 32⟩, .register ⟨.c64x, .general, 1, 32⟩,
      .register ⟨.c64x, .general, 2, 32⟩]
  status := .success
  specifics := .c64x { unit := .l, side := 1 }

set_option maxRecDepth 20000 in
/-- The difference of a register from itself is spelled without it. -/
theorem preferredForm_touches_zero :
    Architecture.c64x.isa? = some C64x.isa ∧
      Engine.decodeRaw ⟨C64x.isa, {}⟩ differenceWord = .ok difference ∧
      ∃ rawDetail detail result,
        C64x.isa.detailOf? difference.form difference.specifics =
            some rawDetail ∧
          C64x.isa.detailOf?
              (Alias.canonicalize C64x.isa.aliases difference.form)
              difference.specifics =
            some detail ∧
          Engine.decodeWord ⟨C64x.isa, {}⟩ differenceWord true =
            .ok result ∧
          result.instruction.detail = some detail ∧
          Architecture.c64x.KeepsStorage difference.form rawDetail
            detail := by
  have decoded :
      Engine.decodeRaw ⟨C64x.isa, {}⟩ differenceWord = .ok difference := by
    rfl
  exact ⟨rfl, decoded, preferredForm_touches rfl decoded⟩

end MachineCode
