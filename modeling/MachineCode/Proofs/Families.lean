import MachineCode.Proofs.Arm64.Lossless
import MachineCode.Proofs.PreferredTouch
import MachineCode.Proofs.RiscV.Compressed

/-!
# The decode programs of the families

For each size of word a family has one decode program or none. The table that
an engine runs does with every word what the program means
(`Architecture.decodeRaw_eq`), so that facts about all words of a family are
read off a few programs.
-/

namespace MachineCode

/-! ## Instruction sets whose tables are laid out from programs -/

/-- What a program means for a word, if there is a program. -/
def Word.outcome
    (word : Word)
    (isa : Isa)
    (features : Features) :
    Option Program → Outcome
  | none => .error (.invalidEncoding word.address (.noTable word.size))
  | some program => program.eval isa features word

/-- The table for words of `size` bytes is the layout of a program, if any. -/
inductive Isa.LaysOut (isa : Isa) (size : Nat) : Option Program → Prop where
  | nothing (absent : isa.table? size = none) : LaysOut isa size none
  | program
      {program : Program}
      {name : String}
      {formats predicates : Nat}
      (present : isa.table? size = some (program.toTable name (8 * size)))
      (valid :
        (program.toTable name (8 * size)).validate formats predicates =
          .ok ()) :
      LaysOut isa size (some program)

theorem Isa.LaysOut.decodeRaw_eq
    {isa : Isa}
    {word : Word}
    {program? : Option Program}
    (laidOut : isa.LaysOut word.size program?)
    (options : Options) :
    Engine.decodeRaw ⟨isa, options⟩ word =
      word.outcome isa options.features program? := by
  cases laidOut with
  | nothing absent =>
      rw [Engine.decodeRaw, absent]
      rfl
  | program present valid =>
      rw [Engine.decodeRaw, present]
      exact isa.run_toTable_of_validate options.features valid rfl

/-- An instruction set of words of four bytes alone has a single program. -/
theorem Isa.laysOut_of_single
    {isa : Isa}
    {program : Program}
    {name : String}
    {formats predicates : Nat}
    (present : isa.table? 4 = some (program.toTable name 32))
    (valid :
      (program.toTable name 32).validate formats predicates = .ok ())
    (absent : ∀ {size : Nat}, size ≠ 4 → isa.table? size = none)
    (size : Nat) :
    isa.LaysOut size (if size = 4 then some program else none) := by
  split
  · next four =>
    subst four
    exact .program present valid
  · next other => exact .nothing (absent other)

/-! ## The families -/

theorem C64x.validate_table :
    table.validate Format.count 0 = .ok () :=
  Table.validate_of_isOk (by decide +kernel)

/-- The decode program for words of `size` bytes, if the family has one. -/
def Architecture.program? (architecture : Architecture) (size : Nat) :
    Option Program :=
  match architecture with
  | .arm64 => if size = 4 then some Arm64.program else none
  | .riscV64 | .riscV32 =>
    if size = 2 then some RiscV.Compressed.program
    else if size = 4 then some RiscV.Wide.program
    else none
  | .c64x => if size = 4 then some C64x.program else none
  | .unknown _ => none

/-- Both widths of RISC-V read a word with the same program. -/
theorem RiscV.program?_eq (xlen : Xlen) (size : Nat) :
    xlen.architecture.program? size =
      if size = 2 then some Compressed.program
      else if size = 4 then some Wide.program
      else none := by
  cases xlen <;> rfl

/-- RISC-V words with a program have two bytes or four. -/
theorem RiscV.program?_cases
    {xlen : Xlen}
    {size : Nat}
    {program : Program}
    (found : xlen.architecture.program? size = some program) :
    (size = 2 ∧ program = Compressed.program) ∨
      (size = 4 ∧ program = Wide.program) := by
  rw [program?_eq] at found
  split at found
  · next two => exact .inl ⟨two, (Option.some.inj found).symm⟩
  · rcases Option.ite_none_right_eq_some.mp found with ⟨four, isWide⟩
    exact .inr ⟨four, (Option.some.inj isWide).symm⟩

theorem Arm64.laysOut (size : Nat) :
    isa.LaysOut size (Architecture.arm64.program? size) :=
  isa.laysOut_of_single rfl validate_table (fun other => if_neg other) size

theorem C64x.laysOut (size : Nat) :
    isa.LaysOut size (Architecture.c64x.program? size) :=
  isa.laysOut_of_single rfl validate_table (fun other => if_neg other) size

theorem RiscV.laysOut (xlen : Xlen) (size : Nat) :
    (isa xlen).LaysOut size (xlen.architecture.program? size) := by
  rw [program?_eq]
  split
  · next two =>
    subst two
    exact .program rfl Compressed.validate_table
  split
  · next four =>
    subst four
    exact .program rfl Wide.validate_table
  · exact .nothing (by simp [isa])

theorem Architecture.laysOut
    {architecture : Architecture}
    {isa : Isa}
    (known : architecture.isa? = some isa)
    (size : Nat) :
    isa.LaysOut size (architecture.program? size) := by
  cases architecture with
  | arm64 =>
      cases known
      exact Arm64.laysOut size
  | riscV64 =>
      cases known
      exact RiscV.laysOut .rv64 size
  | riscV32 =>
      cases known
      exact RiscV.laysOut .rv32 size
  | c64x =>
      cases known
      exact C64x.laysOut size
  | unknown => cases known

/-- What an engine does with a word is what the program for it means. -/
theorem Architecture.decodeRaw_eq
    {architecture : Architecture}
    {isa : Isa}
    (known : architecture.isa? = some isa)
    (options : Options)
    (word : Word) :
    Engine.decodeRaw ⟨isa, options⟩ word =
      word.outcome isa options.features (architecture.program? word.size) :=
  (Architecture.laysOut known word.size).decodeRaw_eq options

end MachineCode
