import MachineCode.Engine
import MachineCode.Proofs.RiscV.PseudoMeaning

/-!
# The registers that decoded pseudo-instructions touch

The rules of the pseudo-instructions rely on what the formats read: only the
link register itself has its number, and a control register stands second
(`takes_of_run`). No rule starts from the opcode of a compressed word. So
whatever has been decoded, of two bytes or of four, its record and the record
of its preferred form touch the same registers (`exists_details`).
-/

namespace MachineCode.RiscV

variable
  {xlen : Xlen}
  {word : Word}
  {features : Features}
  {raw : RawInstruction}

/-! ## What the rules rely on -/

/-- A format that an access to a control register has. -/
theorem format_of_systemAccess
    {opcode : Opcode}
    {format : Format}
    (known : opcode.format? = some format)
    (system : opcode.info.operation = .systemAccess) :
    format = .control ∨ format = .controlConstant := by
  unfold Opcode.format? at known
  split at known <;> cases known
  all_goals first | exact .inl rfl | exact .inr rfl | cases system

/-- Such a format reads a control register second. -/
theorem exists_control_of_read
    (four : word.size = 4)
    {format : Format}
    (controls : format = .control ∨ format = .controlConstant)
    {result : Reading}
    (read : format.read xlen word = .ok result)
    {operand : Operand}
    (second : result.operands[1]? = some operand) :
    ∃ register, operand = .systemRegister register := by
  rcases controls with rfl | rfl
  · rw [Format.read, readControl_eq four] at read
    cases read
    cases second
    exact ⟨_, rfl⟩
  · rw [Format.read, readControlConstant_eq four] at read
    cases read
    cases second
    exact ⟨_, rfl⟩

theorem takes_of_run
    (four : word.size = 4)
    (decoded : (isa xlen).run Wide.table word features = .ok raw)
    {opcode : Opcode}
    (same : opcode.id = raw.opcode)
    {format : Format}
    (known : opcode.format? = some format) :
    opcode.Takes xlen raw.operands where
  linked operand member :=
    (told_of_run decoded same known four operand member).register linkRegister
  control system operand second := by
    rcases exists_read_of_run decoded same known with
      ⟨result, read, operands⟩
    rw [operands] at second
    exact exists_control_of_read four (format_of_systemAccess known system)
      read second

/-! ## What the rules leave alone -/

/-- Every rule starts from an opcode whose format is known. -/
theorem canonicalize_of_format?_eq_none
    {opcode : Opcode}
    (unknown : opcode.format? = none)
    (operands : List Operand) :
    Alias.canonicalize pseudos ⟨opcode.id, operands⟩ =
      ⟨opcode.id, operands⟩ := by
  refine canonicalize_eq_self ?_ operands
  rw [List.all_eq_true]
  intro rule member
  rw [decide_eq_true_eq]
  intro same
  rcases undone_of_mem .rv32 rule member with
    ⟨base, _, format, _, isBase, -, known, -⟩
  cases Opcode.id_injective (isBase.symm.trans same)
  rw [unknown] at known
  cases known

/-- Whether a number is that of an opcode. -/
def isNamed (number _format : Nat) : Bool :=
  (Opcode.ofId? number).any fun opcode => opcode.id = number

/-- Whether a number is that of an opcode from which no rule starts. -/
def isPreferred (number _format : Nat) : Bool :=
  (Opcode.ofId? number).any fun opcode =>
    opcode.id = number && opcode.format? = none

set_option maxRecDepth 20000 in
theorem isNamed_of_mem :
    ∀ entry ∈ Wide.table.entries, entry.fits isNamed := by
  decide

set_option maxRecDepth 20000 in
theorem isPreferred_of_mem :
    ∀ entry ∈ Compressed.table.entries, entry.fits isPreferred := by
  decide

/-- The rules can rely on what has been decoded, or they do not concern it. -/
theorem exists_takes_or_preferred
    {options : Options}
    (decoded : Engine.decodeRaw ⟨isa xlen, options⟩ word = .ok raw) :
    ∃ opcode : Opcode,
      opcode.id = raw.opcode ∧
        (opcode.Takes xlen raw.operands ∨ opcode.format? = none) := by
  rw [Engine.decodeRaw] at decoded
  split at decoded
  · cases decoded
  · next table found =>
    simp only [isa] at found
    split at found
    · cases found
      rcases Isa.exists_fit_of_run isPreferred_of_mem decoded with
        ⟨_, _, preferred, -⟩
      rcases (Option.any_eq_true _ _).mp preferred with ⟨opcode, -, fits⟩
      rw [Bool.and_eq_true, decide_eq_true_eq, decide_eq_true_eq] at fits
      exact ⟨opcode, fits.1, .inr fits.2⟩
    · next four =>
      cases found
      rcases Isa.exists_fit_of_run isNamed_of_mem decoded with
        ⟨_, _, named, -⟩
      rcases (Option.any_eq_true _ _).mp named with ⟨opcode, -, same⟩
      rw [decide_eq_true_eq] at same
      cases known : opcode.format? with
      | none => exact ⟨opcode, same, .inr known⟩
      | some format =>
          exact ⟨opcode, same, .inl (takes_of_run four decoded same known)⟩
    · cases found

/-! ## The records -/

theorem detailOf?_of_opcode
    {form : Form}
    {opcode : Opcode}
    (same : form.opcode = opcode.id)
    (specifics : Specifics) :
    (isa xlen).detailOf? form specifics =
      some (opcode.detail xlen form.operands specifics) := by
  simp [Isa.detailOf?, isa, same, Opcode.detail]

/--
What has been decoded is described, and so is its preferred form; both touch
the same registers, apart from the zero register.
-/
theorem exists_details
    {options : Options}
    (decoded : Engine.decodeRaw ⟨isa xlen, options⟩ word = .ok raw) :
    ∃ rawDetail detail,
      (isa xlen).detailOf? raw.form raw.specifics = some rawDetail ∧
        (isa xlen).detailOf?
            (Alias.canonicalize (isa xlen).aliases raw.form) raw.specifics =
          some detail ∧
        ∀ register : Register, register.id ≠ zeroRegister →
          detail.accessTo register = rawDetail.accessTo register := by
  rcases exists_takes_or_preferred decoded with ⟨opcode, same, rules⟩
  have isForm : raw.form = ⟨opcode.id, raw.operands⟩ := by
    rw [RawInstruction.form, same]
  have isAliases : (isa xlen).aliases = pseudos := rfl
  rw [isForm, isAliases]
  rcases rules with takes | unknown
  · rcases sameTouches_canonicalize takes raw.specifics with
      ⟨preferred, isPreferred, touches⟩
    refine ⟨_, _, detailOf?_of_opcode rfl _,
      detailOf?_of_opcode isPreferred _, ?_⟩
    intro register counts
    exact (touches.accessTo_eq counts).symm
  · rw [canonicalize_of_format?_eq_none unknown]
    exact ⟨_, _, detailOf?_of_opcode rfl _, detailOf?_of_opcode rfl _,
      fun _ _ => rfl⟩

end MachineCode.RiscV
