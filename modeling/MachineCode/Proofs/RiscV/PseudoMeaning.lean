import MachineCode.Proofs.RiscV.Operands
import MachineCode.Proofs.RiscV.Pseudo
import MachineCode.Proofs.Table.Decoding

/-!
# What the pseudo-instructions stand for

The manual lists for each pseudo-instruction the instruction that it stands
for, with the places where the operands that are written go, and what stands
in the other places. `expand?` fills the places in.

Nothing is lost when an instruction is put into its preferred form: what has
been decoded is the expansion of its preferred form (`expand?_pseudoForm`).
The rules leave out only operands that their tests tell apart from all others
(`Told`), so the list of places gives them back.
-/

namespace MachineCode.RiscV

/-! ## The list of the manual -/

/-- What stands in one place of an instruction. -/
inductive Slot where
  /-- The next operand that is written. -/
  | written
  /-- The integer register of a number. -/
  | register (number : Nat)
  /-- The control register of a number. -/
  | control (number : Nat)
  | constant (value : Immediate)

namespace Slot

/-- The zero register. -/
def zero : Slot :=
  register zeroRegister

/-- The link register. -/
def link : Slot :=
  register linkRegister

/-- A signed constant of twelve bits. -/
def signed (value : Int) : Slot :=
  constant ⟨value, 12, true⟩

/-- All accesses, as a fence orders them. -/
def allAccesses : Slot :=
  constant ⟨15, 4, false⟩

/-- Put the operands that are written into their places. -/
def fill (xlen : Xlen) : List Slot → List Operand → Option (List Operand)
  | [], [] => some []
  | .written :: slots, operand :: operands =>
    (fill xlen slots operands).map (operand :: ·)
  | .register number :: slots, operands =>
    (fill xlen slots operands).map (Bank.integer.operand xlen number :: ·)
  | .control number :: slots, operands =>
    (fill xlen slots operands).map
      (.systemRegister (controlRegister number) :: ·)
  | .constant value :: slots, operands =>
    (fill xlen slots operands).map (.immediate value :: ·)
  | _, _ => none

end Slot

/-- What a pseudo-instruction stands for. -/
structure Meaning where
  /-- The opcode of the instruction. -/
  base : Opcode
  slots : List Slot

/-- The instruction that a pseudo-instruction stands for. -/
def Opcode.meaning? : Opcode → Option Meaning
  | .nop => some ⟨.addi, [.zero, .zero, .signed 0]⟩
  | .li => some ⟨.addi, [.written, .zero, .written]⟩
  | .mv => some ⟨.addi, [.written, .written, .signed 0]⟩
  | .not => some ⟨.xori, [.written, .written, .signed (-1)]⟩
  | .neg => some ⟨.sub, [.written, .zero, .written]⟩
  | .negw => some ⟨.subw, [.written, .zero, .written]⟩
  | .sextW => some ⟨.addiw, [.written, .written, .signed 0]⟩
  | .seqz => some ⟨.sltiu, [.written, .written, .signed 1]⟩
  | .snez => some ⟨.sltu, [.written, .zero, .written]⟩
  | .sltz => some ⟨.slt, [.written, .written, .zero]⟩
  | .sgtz => some ⟨.slt, [.written, .zero, .written]⟩
  | .beqz => some ⟨.beq, [.written, .zero, .written]⟩
  | .bnez => some ⟨.bne, [.written, .zero, .written]⟩
  | .blez => some ⟨.bge, [.zero, .written, .written]⟩
  | .bgez => some ⟨.bge, [.written, .zero, .written]⟩
  | .bltz => some ⟨.blt, [.written, .zero, .written]⟩
  | .bgtz => some ⟨.blt, [.zero, .written, .written]⟩
  | .j => some ⟨.jal, [.zero, .written]⟩
  | .jalLink => some ⟨.jal, [.link, .written]⟩
  | .ret => some ⟨.jalr, [.zero, .link, .signed 0]⟩
  | .jr => some ⟨.jalr, [.zero, .written, .signed 0]⟩
  | .jalrLink => some ⟨.jalr, [.link, .written, .signed 0]⟩
  | .rdcycle => some ⟨.csrrs, [.written, .control cycleCounter, .zero]⟩
  | .rdtime => some ⟨.csrrs, [.written, .control timeCounter, .zero]⟩
  | .rdinstret => some ⟨.csrrs, [.written, .control retiredCounter, .zero]⟩
  | .csrr => some ⟨.csrrs, [.written, .written, .zero]⟩
  | .csrw => some ⟨.csrrw, [.zero, .written, .written]⟩
  | .csrs => some ⟨.csrrs, [.zero, .written, .written]⟩
  | .csrc => some ⟨.csrrc, [.zero, .written, .written]⟩
  | .csrwi => some ⟨.csrrwi, [.zero, .written, .written]⟩
  | .csrsi => some ⟨.csrrsi, [.zero, .written, .written]⟩
  | .csrci => some ⟨.csrrci, [.zero, .written, .written]⟩
  | .fenceAll => some ⟨.fence, [.allAccesses, .allAccesses]⟩
  | _ => none

/-- The instruction that the form of a pseudo-instruction stands for. -/
def expand? (xlen : Xlen) (form : Form) : Option Form := do
  let shown ← Opcode.ofId? form.opcode
  let meaning ← shown.meaning?
  let operands ← Slot.fill xlen meaning.slots form.operands
  return ⟨meaning.base.id, operands⟩

/-! ## Operands that are told apart -/

/-- The format of an opcode that pseudo-instructions stand for. -/
def Opcode.format? : Opcode → Option Format
  | .addi | .xori | .addiw | .sltiu => some .constant
  | .sub | .subw | .sltu | .slt => some .registers
  | .beq | .bne | .bge | .blt => some .branch
  | .jal => some .jump
  | .jalr => some .jumpRegister
  | .csrrs | .csrrw | .csrrc => some .control
  | .csrrwi | .csrrsi | .csrrci => some .controlConstant
  | .fence => some .fence
  | _ => none

/-- The formats that pseudo-instructions have. -/
def Format.common : List Format :=
  [.constant, .registers, .branch, .jump, .jumpRegister, .control,
    .controlConstant, .fence]

theorem mem_common_of_format?
    {opcode : Opcode}
    {format : Format}
    (known : opcode.format? = some format) :
    format ∈ Format.common := by
  unfold Opcode.format? at known
  split at known <;> cases known <;> decide

/-- How a format represents a constant. -/
def Format.constantOf (value : Int) : Format → Immediate
  | .fence => ⟨value, 4, false⟩
  | .controlConstant => ⟨value, 5, false⟩
  | _ => ⟨value, 12, true⟩

theorem Format.constantOf_value (value : Int) (format : Format) :
    (format.constantOf value).value = value := by
  cases format <;> rfl

/-- Whether the tests of the rules tell an operand apart from all others. -/
structure Told (xlen : Xlen) (format : Format) (operand : Operand) :
    Prop where
  register :
    ∀ number, operand.isRegister number →
      operand = Bank.integer.operand xlen number
  control :
    ∀ number, isControl operand number →
      operand = .systemRegister (controlRegister number)
  constant :
    ∀ value, operand.isConstant value →
      operand = .immediate (format.constantOf value)

section Told

variable {xlen : Xlen} {format : Format}

theorem told_register (number : Nat) :
    Told xlen format (Bank.integer.operand xlen number) where
  register other same := by
    simp only [Operand.isRegister, Bank.operand, Bank.register,
      Operand.register?, Option.map_some, Option.some.injEq,
      decide_eq_true_eq] at same
    rw [same]
  control other same := by cases same
  constant value same := by cases same

theorem told_control (number : Nat) :
    Told xlen format (.systemRegister (controlRegister number)) where
  register other same := by cases same
  control other same := by
    rw [isControl, decide_eq_true_eq] at same
    rw [show number = other from same]
  constant value same := by cases same

theorem told_target (address : Address) (offset : Int) :
    Told xlen format (targetAt address offset) where
  register other same := by cases same
  control other same := by cases same
  constant value same := by cases same

theorem told_constant (value : Int) :
    Told xlen format (.immediate (format.constantOf value)) where
  register other same := by cases same
  control other same := by cases same
  constant other same := by
    rw [Operand.isConstant, decide_eq_true_eq, Operand.immediateValue?,
      format.constantOf_value, Option.some.injEq] at same
    rw [same]

/-- What is read from a word in such a format is told apart. -/
theorem told_of_read
    {word : Word}
    (four : word.size = 4)
    {result : Reading}
    (read : format.read xlen word = .ok result)
    (common : format ∈ Format.common) :
    ∀ operand ∈ result.operands, Told xlen format operand := by
  cases format with
  | constant | jumpRegister =>
      rw [Format.read, readConstant_eq four] at read
      cases read
      simp only [reading, List.forall_mem_cons]
      exact ⟨told_register _, told_register _, told_constant _, by simp⟩
  | registers =>
      simp only [Format.read] at read
      have three := @readThree_eq xlen word four Bank.integer
      rw [Bank.file] at three
      rw [three] at read
      cases read
      simp only [reading, List.forall_mem_cons]
      exact ⟨told_register _, told_register _, told_register _, by simp⟩
  | branch =>
      rw [Format.read, readBranch_eq four] at read
      cases read
      simp only [reading, List.forall_mem_cons]
      exact ⟨told_register _, told_register _, told_target .., by simp⟩
  | jump =>
      rw [Format.read, readJump_eq four] at read
      cases read
      simp only [reading, List.forall_mem_cons]
      exact ⟨told_register _, told_target .., by simp⟩
  | control =>
      rw [Format.read, readControl_eq four] at read
      cases read
      simp only [reading, List.forall_mem_cons]
      exact ⟨told_register _, told_control _, told_register _, by simp⟩
  | controlConstant =>
      rw [Format.read, readControlConstant_eq four] at read
      cases read
      simp only [reading, List.forall_mem_cons]
      exact ⟨told_register _, told_control _, told_constant _, by simp⟩
  | fence =>
      rw [Format.read, readFence_eq four] at read
      cases read
      simp only [reading, List.forall_mem_cons]
      exact ⟨told_constant _, told_constant _, by simp⟩
  | _ => exact absurd common (by decide)

end Told

/-- Whether such an opcode stands beside its format. -/
def isKnown (opcode format : Nat) : Bool :=
  match (Opcode.ofId? opcode).bind Opcode.format? with
  | some known => format = known.id
  | none => true

set_option maxRecDepth 20000 in
theorem isKnown_of_mem :
    ∀ entry ∈ Wide.table.entries, entry.fits isKnown := by
  decide

section Run

variable
  {xlen : Xlen}
  {word : Word}
  {features : Features}
  {raw : RawInstruction}
  (decoded : (isa xlen).run Wide.table word features = .ok raw)
  {opcode : Opcode}
  (same : opcode.id = raw.opcode)
  {format : Format}
  (known : opcode.format? = some format)
include decoded same known

/-- What has been decoded is read in the format of its opcode. -/
theorem exists_read_of_run :
    ∃ result,
      format.read xlen word = .ok result ∧
        raw.operands = result.operands := by
  rcases Isa.exists_fit_of_run isKnown_of_mem decoded with
    ⟨number, result, sameFormat, read, operands, -⟩
  rw [isKnown, ← same, Opcode.ofId?_id, Option.bind_some, known,
    decide_eq_true_eq] at sameFormat
  rw [sameFormat] at read
  exact ⟨result, by simpa [isa] using read, operands⟩

/-- The operands of what has been decoded are told apart. -/
theorem told_of_run (four : word.size = 4) :
    ∀ operand ∈ raw.operands, Told xlen format operand := by
  rcases exists_read_of_run decoded same known with
    ⟨result, read, operands⟩
  rw [operands]
  exact told_of_read four read (mem_common_of_format? known)

end Run

/-! ## Operands that are given back -/

section Slots

variable
  {xlen : Xlen}
  {format : Format}
  {operands reduced : List Operand}
  (told : ∀ operand ∈ operands, Told xlen format operand)
include told

theorem fill_of_nothing
    (signed : format.constantOf 0 = ⟨0, 12, true⟩)
    (reduces : nothing operands = some reduced) :
    Slot.fill xlen [.zero, .zero, .signed 0] reduced = some operands := by
  rcases exists_of_keepOfThree reduces with
    ⟨first, second, third, rfl, passed, rfl⟩
  simp only [List.forall_mem_cons] at told
  rw [Bool.and_eq_true, Bool.and_eq_true] at passed
  rw [told.1.register _ passed.1.1, told.2.1.register _ passed.1.2,
    told.2.2.1.constant _ passed.2, signed]
  rfl

theorem fill_of_withoutConstant
    {value : Int}
    (signed : format.constantOf value = ⟨value, 12, true⟩)
    (reduces : withoutConstant value operands = some reduced) :
    Slot.fill xlen [.written, .written, .signed value] reduced =
      some operands := by
  rcases exists_of_keepOfThree reduces with
    ⟨first, second, third, rfl, passed, rfl⟩
  simp only [List.forall_mem_cons] at told
  rw [told.2.2.1.constant _ passed, signed]
  rfl

theorem fill_of_withoutZeroFirst
    (reduces : withoutZeroFirst operands = some reduced) :
    Slot.fill xlen [.zero, .written, .written] reduced = some operands := by
  rcases exists_of_keepOfThree reduces with
    ⟨first, second, third, rfl, passed, rfl⟩
  simp only [List.forall_mem_cons] at told
  rw [told.1.register _ passed]
  rfl

theorem fill_of_withoutZeroSecond
    (reduces : withoutZeroSecond operands = some reduced) :
    Slot.fill xlen [.written, .zero, .written] reduced = some operands := by
  rcases exists_of_keepOfThree reduces with
    ⟨first, second, third, rfl, passed, rfl⟩
  simp only [List.forall_mem_cons] at told
  rw [told.2.1.register _ passed]
  rfl

theorem fill_of_withoutZeroThird
    (reduces : withoutZeroThird operands = some reduced) :
    Slot.fill xlen [.written, .written, .zero] reduced = some operands := by
  rcases exists_of_keepOfThree reduces with
    ⟨first, second, third, rfl, passed, rfl⟩
  simp only [List.forall_mem_cons] at told
  rw [told.2.2.1.register _ passed]
  rfl

theorem fill_of_linking
    {number : Nat}
    (reduces : linking number operands = some reduced) :
    Slot.fill xlen [.register number, .written] reduced =
      some operands := by
  rcases exists_of_linking reduces with ⟨link, target, rfl, linked, rfl⟩
  simp only [List.forall_mem_cons] at told
  rw [told.1.register _ linked]
  rfl

theorem fill_of_returning
    (signed : format.constantOf 0 = ⟨0, 12, true⟩)
    (reduces : returning operands = some reduced) :
    Slot.fill xlen [.zero, .link, .signed 0] reduced = some operands := by
  rcases exists_of_keepOfThree reduces with
    ⟨first, second, third, rfl, passed, rfl⟩
  simp only [List.forall_mem_cons] at told
  rw [Bool.and_eq_true, Bool.and_eq_true] at passed
  rw [told.1.register _ passed.1.1, told.2.1.register _ passed.1.2,
    told.2.2.1.constant _ passed.2, signed]
  rfl

theorem fill_of_linkingRegister
    {number : Nat}
    (signed : format.constantOf 0 = ⟨0, 12, true⟩)
    (reduces : linkingRegister number operands = some reduced) :
    Slot.fill xlen [.register number, .written, .signed 0] reduced =
      some operands := by
  rcases exists_of_keepOfThree reduces with
    ⟨first, second, third, rfl, passed, rfl⟩
  simp only [List.forall_mem_cons] at told
  rw [Bool.and_eq_true] at passed
  rw [told.1.register _ passed.1, told.2.2.1.constant _ passed.2, signed]
  rfl

theorem fill_of_readingCounter
    {number : Nat}
    (reduces : readingCounter number operands = some reduced) :
    Slot.fill xlen [.written, .control number, .zero] reduced =
      some operands := by
  rcases exists_of_keepOfThree reduces with
    ⟨first, second, third, rfl, passed, rfl⟩
  simp only [List.forall_mem_cons] at told
  rw [Bool.and_eq_true] at passed
  rw [told.2.1.control _ passed.1, told.2.2.1.register _ passed.2]
  rfl

theorem fill_of_orderingAll
    (unsigned : format.constantOf 15 = ⟨15, 4, false⟩)
    (reduces : orderingAll operands = some reduced) :
    Slot.fill xlen [.allAccesses, .allAccesses] reduced =
      some operands := by
  unfold orderingAll at reduces
  split at reduces
  · next before after =>
    simp only [Option.ite_none_right_eq_some, Option.some.injEq,
      Bool.and_eq_true] at reduces
    rcases reduces with ⟨passed, rfl⟩
    simp only [List.forall_mem_cons] at told
    rw [told.1.constant _ passed.1, told.2.1.constant _ passed.2, unsigned]
    rfl
  · cases reduces

end Slots

/-! ## All pseudo-instructions -/

/-- Whether the manual's places give back what the rule has left out. -/
def Undone (xlen : Xlen) (rule : Alias) : Prop :=
  ∃ (base shown : Opcode) (format : Format) (slots : List Slot),
    rule.opcode = base.id ∧ rule.preferred = shown.id ∧
      base.format? = some format ∧
      shown.meaning? = some ⟨base, slots⟩ ∧
      ∀ {operands reduced : List Operand},
        (∀ operand ∈ operands, Told xlen format operand) →
          rule.reduce operands = some reduced →
          Slot.fill xlen slots reduced = some operands

section Rules

variable
  {xlen : Xlen}
  {base shown : Opcode}
  {format : Format}
  (known : base.format? = some format)
include known

theorem undone_pseudo
    {slots : List Slot}
    {reduce : List Operand → Option (List Operand)}
    (defined : shown.meaning? = some ⟨base, slots⟩)
    (fills :
      ∀ {operands reduced : List Operand},
        (∀ operand ∈ operands, Told xlen format operand) →
          reduce operands = some reduced →
          Slot.fill xlen slots reduced = some operands) :
    Undone xlen (pseudo base shown reduce) :=
  ⟨base, shown, format, slots, rfl, rfl, known, defined, fills⟩

theorem undone_withoutConstant
    {value : Int}
    (signed : format.constantOf value = ⟨value, 12, true⟩)
    (defined :
      shown.meaning? = some ⟨base, [.written, .written, .signed value]⟩) :
    Undone xlen (pseudo base shown (withoutConstant value)) :=
  undone_pseudo known defined fun told reduces =>
    fill_of_withoutConstant told signed reduces

theorem undone_withoutZeroFirst
    (defined :
      shown.meaning? = some ⟨base, [.zero, .written, .written]⟩) :
    Undone xlen (pseudo base shown withoutZeroFirst) :=
  undone_pseudo known defined fill_of_withoutZeroFirst

theorem undone_withoutZeroSecond
    (defined :
      shown.meaning? = some ⟨base, [.written, .zero, .written]⟩) :
    Undone xlen (pseudo base shown withoutZeroSecond) :=
  undone_pseudo known defined fill_of_withoutZeroSecond

theorem undone_withoutZeroThird
    (defined :
      shown.meaning? = some ⟨base, [.written, .written, .zero]⟩) :
    Undone xlen (pseudo base shown withoutZeroThird) :=
  undone_pseudo known defined fill_of_withoutZeroThird

end Rules

theorem undone_linking
    {xlen : Xlen}
    {shown : Opcode}
    {number : Nat}
    (defined :
      shown.meaning? = some ⟨.jal, [.register number, .written]⟩) :
    Undone xlen (pseudo .jal shown (linking number)) :=
  undone_pseudo rfl defined fun told reduces =>
    fill_of_linking told reduces

theorem undone_readingCounter
    {xlen : Xlen}
    {shown : Opcode}
    {number : Nat}
    (defined :
      shown.meaning? = some ⟨.csrrs, [.written, .control number, .zero]⟩) :
    Undone xlen (pseudo .csrrs shown (readingCounter number)) :=
  undone_pseudo rfl defined fun told reduces =>
    fill_of_readingCounter told reduces

theorem undone_of_mem (xlen : Xlen) :
    ∀ rule ∈ pseudos, Undone xlen rule := by
  simp only [pseudos, List.forall_mem_cons]
  exact
    ⟨undone_pseudo rfl rfl fun told => fill_of_nothing told rfl,
      undone_withoutZeroSecond rfl rfl,
      undone_withoutConstant rfl rfl rfl,
      undone_withoutConstant rfl rfl rfl,
      undone_withoutZeroSecond rfl rfl,
      undone_withoutZeroSecond rfl rfl,
      undone_withoutConstant rfl rfl rfl,
      undone_withoutConstant rfl rfl rfl,
      undone_withoutZeroSecond rfl rfl,
      undone_withoutZeroThird rfl rfl,
      undone_withoutZeroSecond rfl rfl,
      undone_withoutZeroSecond rfl rfl,
      undone_withoutZeroSecond rfl rfl,
      undone_withoutZeroFirst rfl rfl,
      undone_withoutZeroSecond rfl rfl,
      undone_withoutZeroSecond rfl rfl,
      undone_withoutZeroFirst rfl rfl,
      undone_linking rfl,
      undone_linking rfl,
      undone_pseudo rfl rfl fun told => fill_of_returning told rfl,
      undone_pseudo rfl rfl fun told => fill_of_linkingRegister told rfl,
      undone_pseudo rfl rfl fun told => fill_of_linkingRegister told rfl,
      undone_readingCounter rfl,
      undone_readingCounter rfl,
      undone_readingCounter rfl,
      undone_withoutZeroThird rfl rfl,
      undone_withoutZeroFirst rfl rfl,
      undone_withoutZeroFirst rfl rfl,
      undone_withoutZeroFirst rfl rfl,
      undone_withoutZeroFirst rfl rfl,
      undone_withoutZeroFirst rfl rfl,
      undone_withoutZeroFirst rfl rfl,
      undone_pseudo rfl rfl fun told => fill_of_orderingAll told rfl,
      by simp⟩

/--
What has been decoded from a word of four bytes is the expansion of its
preferred form, whenever that is another form.
-/
theorem expand?_pseudoForm
    {xlen : Xlen}
    {word : Word}
    (four : word.size = 4)
    {features : Features}
    {raw : RawInstruction}
    (decoded : (isa xlen).run Wide.table word features = .ok raw)
    (rewritten :
      Alias.canonicalize (isa xlen).aliases raw.form ≠ raw.form) :
    expand? xlen (Alias.canonicalize (isa xlen).aliases raw.form) =
      some raw.form := by
  rcases Alias.exists_of_canonicalize_ne rewritten with
    ⟨rule, member, reduced, same, reduces, result⟩
  rcases undone_of_mem xlen rule member with
    ⟨base, shown, format, slots, isBase, isShown, known, defined, fills⟩
  have baseFound : base.id = raw.opcode := isBase.symm.trans same
  have told := told_of_run decoded baseFound known four
  have filled := fills told reduces
  rw [result, expand?, isShown]
  simp only [Opcode.ofId?_id, defined, filled, Option.bind_eq_bind,
    Option.bind_some, Option.pure_def, baseFound]
  rfl

/-- A word of `bge x0, x8, 16`. -/
def blezWord : Word :=
  ⟨[0x63, 0x58, 0x80, 0x00], 0x1000, 0x00805863, by simp, by decide⟩

set_option maxRecDepth 50000 in
/-- A branch if not positive compares the zero register with the source. -/
theorem expand?_pseudoForm_blez :
    (isa .rv32).run Wide.table blezWord .empty =
        .ok
          { opcode := Opcode.bge.id
            operands :=
              [Bank.integer.operand .rv32 0, Bank.integer.operand .rv32 8,
                targetAt 0x1000 16]
            status := .success
            specifics := .riscV none } ∧
      expand? .rv32
          ⟨Opcode.blez.id,
            [Bank.integer.operand .rv32 8, targetAt 0x1000 16]⟩ =
        some
          ⟨Opcode.bge.id,
            [Bank.integer.operand .rv32 0, Bank.integer.operand .rv32 8,
              targetAt 0x1000 16]⟩ := by
  have decoded :
      (isa .rv32).run Wide.table blezWord .empty =
        .ok
          { opcode := Opcode.bge.id
            operands :=
              [Bank.integer.operand .rv32 0, Bank.integer.operand .rv32 8,
                targetAt 0x1000 16]
            status := .success
            specifics := .riscV none } := by
    rfl
  exact
    ⟨decoded, expand?_pseudoForm rfl decoded (by decide +kernel)⟩

end MachineCode.RiscV
