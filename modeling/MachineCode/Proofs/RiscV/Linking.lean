import MachineCode.Proofs.ControlFlow
import MachineCode.Proofs.RiscV.Jumps
import MachineCode.Proofs.RiscV.PreferredForm
import MachineCode.Proofs.RiscV.ShortOperands

/-!
# Calls are jumps that link

A jump that leaves the address behind it in a register is a call. What is
read from a word is one of six jumps (`Jump`); the preferred form of each is a
call exactly if its detail record lists an integer register that is written,
and the zero register does not count. The only exception is a `jalr` with an
offset that links the zero register: no rule is for it, and `jalr` is a call
by its description (`isCall_iff_links`).
-/

namespace MachineCode.RiscV

/-- Whether an opcode is one of `jal` and `jalr`, in any of their forms. -/
def Opcode.isJumpAndLink : Opcode → Bool
  | .jal | .jalr | .j | .jalLink | .ret | .jr | .jalrLink | .cJ | .cJal
  | .cJr | .cJalr => true
  | _ => false

/-- Whether a record lists an integer register that keeps what is written. -/
def LinksRegister (detail : Detail) : Prop :=
  ∃ register ∈ detail.writes,
    register.kind = .general ∧ register.id ≠ zeroRegister

/-- Whether a form is a jump with an offset that links the zero register. -/
def IsUnlinked (xlen : Xlen) (form : Form) : Prop :=
  form.opcode = Opcode.jalr.id ∧
    ∃ base offset,
      offset ≠ 0 ∧
        form.operands =
          [Bank.integer.operand xlen zeroRegister, base, .signed offset 12]

/-! ## Jumps as they are read -/

/-- The jumps before they are put into their preferred forms. -/
inductive Jump (xlen : Xlen) (address : Address) : Form → Prop where
  | jal (link : Nat) (offset : Int) :
      Jump xlen address
        ⟨Opcode.jal.id,
          [Bank.integer.operand xlen link, targetAt address offset]⟩
  | jalr (link base : Nat) (offset : Int) :
      Jump xlen address
        ⟨Opcode.jalr.id,
          [Bank.integer.operand xlen link, Bank.integer.operand xlen base,
            .signed offset 12]⟩
  | cJ (offset : Int) :
      Jump xlen address ⟨Opcode.cJ.id, [targetAt address offset]⟩
  | cJal (offset : Int) :
      Jump xlen address ⟨Opcode.cJal.id, [targetAt address offset]⟩
  | cJr (base : Nat) :
      Jump xlen address ⟨Opcode.cJr.id, [Bank.integer.operand xlen base]⟩
  | cJalr (base : Nat) :
      Jump xlen address ⟨Opcode.cJalr.id, [Bank.integer.operand xlen base]⟩

/-! ## Preferred forms -/

/-- Whether a form is a call exactly if it links, unless it is unlinked. -/
def CallsLinking (xlen : Xlen) (specifics : Specifics) (form : Form) :
    Prop :=
  ∃ opcode : Opcode,
    form.opcode = opcode.id ∧
      ((opcode.info.operation = .call ↔
          LinksRegister (opcode.detail xlen form.operands specifics)) ↔
        ¬ IsUnlinked xlen form)

section Forms

variable
  {xlen : Xlen}
  {specifics : Specifics}
  {opcode : Opcode}
  {operands : List Operand}

theorem linksRegister_iff
    {detail : Detail}
    {number : Nat}
    (writes : detail.writes = [Bank.integer.register xlen number]) :
    LinksRegister detail ↔ number ≠ zeroRegister := by
  simp [LinksRegister, writes, Bank.register]

theorem not_isUnlinked
    (other : opcode ≠ .jalr)
    (operands : List Operand) :
    ¬ IsUnlinked xlen ⟨opcode.id, operands⟩ :=
  fun unlinked => other (Opcode.id_injective unlinked.1)

/-- A jump that writes no register, and is no call. -/
theorem callsLinking_of_writes_eq_nil
    (noCall : opcode.info.operation ≠ .call)
    (other : opcode ≠ .jalr)
    (writes : (opcode.detail xlen operands specifics).writes = []) :
    CallsLinking xlen specifics ⟨opcode.id, operands⟩ := by
  refine ⟨opcode, rfl, ?_⟩
  rw [iff_true_right (not_isUnlinked other operands), iff_false_left noCall,
    LinksRegister, writes]
  simp

/-- A jump that writes a register other than the zero register is a call. -/
theorem callsLinking_of_writes
    (call : opcode.info.operation = .call)
    {link : Nat}
    (counts : link ≠ zeroRegister)
    (linked : ¬ IsUnlinked xlen ⟨opcode.id, operands⟩)
    (writes :
      (opcode.detail xlen operands specifics).writes =
        [Bank.integer.register xlen link]) :
    CallsLinking xlen specifics ⟨opcode.id, operands⟩ := by
  refine ⟨opcode, rfl, ?_⟩
  rw [iff_true_right linked, iff_true_left call, linksRegister_iff writes]
  exact counts

/-- A jump with an offset that links the zero register is still a call. -/
theorem callsLinking_of_moved
    {base : Nat}
    {offset : Int}
    (moved : offset ≠ 0) :
    CallsLinking xlen specifics
      ⟨Opcode.jalr.id,
        [Bank.integer.operand xlen zeroRegister,
          Bank.integer.operand xlen base, .signed offset 12]⟩ := by
  refine ⟨.jalr, rfl, ?_⟩
  rw [iff_false_right (not_not_intro ⟨rfl, _, offset, moved, rfl⟩),
    @linksRegister_iff xlen _ zeroRegister rfl]
  exact fun calls => calls.mp rfl rfl

end Forms

theorem Jump.callsLinking
    {xlen : Xlen}
    {address : Address}
    {raw : Form}
    (jump : Jump xlen address raw)
    (specifics : Specifics) :
    CallsLinking xlen specifics (Alias.canonicalize pseudos raw) := by
  cases jump with
  | jal link offset =>
      rw [canonicalize_jal_operands]
      split
      · exact callsLinking_of_writes_eq_nil (by decide) (by decide) rfl
      · next counts =>
        split
        · exact callsLinking_of_writes rfl (by decide)
            (not_isUnlinked (by decide) _) rfl
        · exact callsLinking_of_writes rfl counts
            (not_isUnlinked (by decide) _) rfl
  | jalr link base offset =>
      rw [canonicalize_jalr_operands]
      split
      · split
        · exact callsLinking_of_writes_eq_nil (by decide) (by decide) rfl
        · exact callsLinking_of_writes_eq_nil (by decide) (by decide) rfl
      · next jumps =>
        split
        · exact callsLinking_of_writes rfl (by decide)
            (not_isUnlinked (by decide) _) rfl
        · by_cases zero : link = zeroRegister
          · cases zero
            have moved : offset ≠ 0 := fun none => jumps ⟨none, rfl⟩
            exact callsLinking_of_moved moved
          · refine callsLinking_of_writes rfl zero ?_ rfl
            rintro ⟨-, other, moved, -, same⟩
            cases same
            exact zero rfl
  | cJ offset =>
      rw [canonicalize_eq_self (by decide)]
      exact callsLinking_of_writes_eq_nil (by decide) (by decide) rfl
  | cJal offset =>
      rw [canonicalize_eq_self (by decide)]
      exact callsLinking_of_writes rfl (by decide)
        (not_isUnlinked (by decide) _) rfl
  | cJr base =>
      rw [canonicalize_eq_self (by decide)]
      exact callsLinking_of_writes_eq_nil (by decide) (by decide) rfl
  | cJalr base =>
      rw [canonicalize_eq_self (by decide)]
      exact callsLinking_of_writes rfl (by decide)
        (not_isUnlinked (by decide) _) rfl

/-! ## What has been decoded -/

namespace Wide

/-- Whether `jal` and `jalr` are the only jumps among the opcodes. -/
def isJump (number _format : Nat) : Bool :=
  (Opcode.ofId? number).any fun opcode =>
    opcode.id = number &&
      (!opcode.isJumpAndLink || opcode = .jal || opcode = .jalr)

theorem isJump_of_mem : ∀ entry ∈ table.entries, entry.fits isJump := by
  decide +kernel

/-- The jumps of a word of four bytes. -/
theorem jump_of_run
    {xlen : Xlen}
    {word : Word}
    (four : word.size = 4)
    {features : Features}
    {raw : RawInstruction}
    (ran : (isa xlen).run table word features = .ok raw)
    {opcode : Opcode}
    (same : opcode.id = raw.opcode)
    (jumps : opcode.isJumpAndLink) :
    Jump xlen word.address raw.form := by
  rcases Isa.exists_fit_of_run isJump_of_mem ran with ⟨_, _, fits, -⟩
  rw [isJump, ← same, Opcode.ofId?_id] at fits
  simp only [Option.any_some, Bool.and_eq_true, Bool.or_eq_true,
    Bool.not_eq_true', decide_eq_true_eq, jumps, Bool.true_eq_false,
    false_or] at fits
  rcases fits.2 with rfl | rfl
  · rcases exists_read_of_run ran same rfl with ⟨result, read, operands⟩
    rw [Format.read, readJump_eq four] at read
    cases read
    rw [RawInstruction.form, ← same, operands]
    exact .jal _ _
  · rcases exists_read_of_run ran same rfl with ⟨result, read, operands⟩
    rw [Format.read, readConstant_eq four] at read
    cases read
    rw [RawInstruction.form, ← same, operands]
    exact .jalr _ _ _

end Wide

namespace Compressed

/-- The format of a compressed jump. -/
def jumpFormat? : Opcode → Option Format
  | .cJ | .cJal => some .shortJump
  | .cJr | .cJalr => some .shortJumpRegister
  | _ => none

/-- Whether the jumps among the opcodes stand beside their formats. -/
def isJump (number format : Nat) : Bool :=
  (Opcode.ofId? number).any fun opcode =>
    opcode.id = number &&
      (!opcode.isJumpAndLink ||
        (jumpFormat? opcode).any fun known => known.id = format)

theorem isJump_of_mem : ∀ entry ∈ table.entries, entry.fits isJump := by
  decide +kernel

/-- The jumps of a word of two bytes. -/
theorem jump_of_run
    {xlen : Xlen}
    {word : Word}
    (two : word.size = 2)
    {features : Features}
    {raw : RawInstruction}
    (ran : (isa xlen).run table word features = .ok raw)
    {opcode : Opcode}
    (same : opcode.id = raw.opcode)
    (jumps : opcode.isJumpAndLink) :
    Jump xlen word.address raw.form := by
  rcases Isa.exists_fit_of_run isJump_of_mem ran with
    ⟨number, result, fits, read, operands, -⟩
  rw [isJump, ← same, Opcode.ofId?_id, Option.any_some, Bool.and_eq_true,
    jumps, Bool.not_true, Bool.false_or] at fits
  rcases (Option.any_eq_true _ _).mp fits.2 with ⟨format, known, isNumber⟩
  rw [← of_decide_eq_true isNumber] at read
  have readFormat := read_of_readOperands read
  rw [RawInstruction.form, ← same, operands]
  unfold jumpFormat? at known
  split at known <;> cases known
  · rw [(readsAs_of_readShortJump two readFormat).1]
    exact .cJ _
  · rw [(readsAs_of_readShortJump two readFormat).1]
    exact .cJal _
  · rw [(readsAs_of_readShortJumpRegister two readFormat).1]
    exact .cJr _
  · rw [(readsAs_of_readShortJumpRegister two readFormat).1]
    exact .cJalr _

end Compressed

section Decoded

variable {xlen : Xlen} {options : Options} {word : Word}

/-- The pseudo-instructions that are jumps stand for jumps. -/
theorem isJumpAndLink_of_meaning?
    {shown : Opcode}
    {meaning : Meaning}
    (listed : shown.meaning? = some meaning)
    (jumps : shown.isJumpAndLink) :
    meaning.base.isJumpAndLink := by
  unfold Opcode.meaning? at listed
  split at listed <;> cases listed
  all_goals first | rfl | cases jumps

/-- What is shown as a jump has been read as one. -/
theorem jump_of_decodeRaw
    {raw : RawInstruction}
    (read : Engine.decodeRaw ⟨isa xlen, options⟩ word = .ok raw)
    {opcode : Opcode}
    (shown :
      (Alias.canonicalize (isa xlen).aliases raw.form).opcode = opcode.id)
    (jumps : opcode.isJumpAndLink) :
    Jump xlen word.address raw.form := by
  obtain ⟨base, same, jumps⟩ :
      ∃ base : Opcode, base.id = raw.opcode ∧ base.isJumpAndLink := by
    rcases eq_or_fillsPlaces_of_decodeRaw read with unchanged | fills
    · rw [unchanged] at shown
      exact ⟨opcode, shown.symm, jumps⟩
    · rcases fills with ⟨listing, meaning, listed, isBase, isShown, -⟩
      cases Opcode.id_injective (isShown.symm.trans shown)
      exact ⟨meaning.base, isBase, isJumpAndLink_of_meaning? listed jumps⟩
  rcases run_of_decodeRaw read with ⟨two, ran⟩ | ⟨four, ran⟩
  · exact Compressed.jump_of_run two ran same jumps
  · exact Wide.jump_of_run four ran same jumps

/--
A jump is a call exactly if it leaves the return address in a register that
keeps it. The only exception is a `jalr` with an offset that links the zero
register, which is a call nevertheless.
-/
theorem isCall_iff_linksRegister
    {decoded : Decoded}
    (success :
      Engine.decodeWord ⟨isa xlen, options⟩ word true = .ok decoded)
    {opcode : Opcode}
    (shown : decoded.instruction.opcode = some opcode.id)
    (jumps : opcode.isJumpAndLink) :
    ∃ detail,
      decoded.instruction.detail = some detail ∧
        ((decoded.instruction.isCall ↔ LinksRegister detail) ↔
          ¬ IsUnlinked xlen ⟨opcode.id, decoded.instruction.operands⟩) := by
  rcases exists_describe_of_decodeWord success with
    ⟨raw, other, operands, read, preferred, described⟩
  rw [described] at shown ⊢
  cases Opcode.id_injective (Option.some.inj shown)
  refine ⟨_, rfl, ?_⟩
  have isShown :
      (Alias.canonicalize (isa xlen).aliases raw.form).opcode =
        opcode.id := by
    rw [preferred]
  rcases (jump_of_decodeRaw read isShown jumps).callsLinking raw.specifics
    with ⟨same, isSame, calls⟩
  rw [show (isa xlen).aliases = pseudos from rfl] at preferred
  rw [preferred] at isSame calls
  cases Opcode.id_injective isSame
  rw [Instruction.isCall, Engine.describe, Engine.isCall_flow,
    decide_eq_true_eq]
  exact calls

end Decoded

/-- A word of `jalr t0, 4(ra)`. -/
def linkedJumpWord : Word :=
  ⟨[0xe7, 0x82, 0x40, 0x00], 0x1000, 0x004082e7, by simp, by decide⟩

set_option maxRecDepth 20000 in
/-- A jump that links another register than the usual one is a call. -/
theorem isCall_iff_linksRegister_linkedJump :
    ∃ decoded detail,
      Engine.decodeWord ⟨isa .rv64, {}⟩ linkedJumpWord true = .ok decoded ∧
        decoded.instruction.opcode = some Opcode.jalr.id ∧
        decoded.instruction.detail = some detail ∧
        ((decoded.instruction.isCall ↔ LinksRegister detail) ↔
          ¬ IsUnlinked .rv64
            ⟨Opcode.jalr.id, decoded.instruction.operands⟩) := by
  obtain ⟨decoded, success, shown⟩ :
      ∃ decoded,
        Engine.decodeWord ⟨isa .rv64, {}⟩ linkedJumpWord true =
            .ok decoded ∧
          decoded.instruction.opcode = some Opcode.jalr.id :=
    ⟨_, rfl, rfl⟩
  rcases isCall_iff_linksRegister success shown rfl with
    ⟨detail, carried, calls⟩
  exact ⟨decoded, detail, success, shown, carried, calls⟩

/-- A word of `jalr zero, 4(ra)`. -/
def unlinkedJumpWord : Word :=
  ⟨[0x67, 0x80, 0x40, 0x00], 0x1000, 0x00408067, by simp, by decide⟩

set_option maxRecDepth 20000 in
/-- A jump with an offset that links the zero register is still a call. -/
theorem isCall_unlinkedJump :
    ∃ decoded detail,
      Engine.decodeWord ⟨isa .rv64, {}⟩ unlinkedJumpWord true =
          .ok decoded ∧
        decoded.instruction.opcode = some Opcode.jalr.id ∧
        decoded.instruction.isCall ∧
        decoded.instruction.detail = some detail ∧
        ¬ LinksRegister detail := by
  refine ⟨_, _, rfl, rfl, rfl, rfl, ?_⟩
  rw [@linksRegister_iff .rv64 _ zeroRegister rfl]
  exact not_not_intro rfl

end MachineCode.RiscV
