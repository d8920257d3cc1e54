import MachineCode.Proofs.FirstWord
import MachineCode.Proofs.RiscV.PseudoTouch

/-!
# The preferred form of what has been decoded

A word of two bytes is its own preferred form. A word of four bytes is, or its
operands are those of the preferred form in the places that the manual lists
for the pseudo-instruction (`eq_or_fillsPlaces_of_decodeRaw`). Whatever the
places add can be told from the listing, so a fact about the operands that
were read becomes one about the operands that are shown.
-/

namespace MachineCode.RiscV

variable {xlen : Xlen} {word : Word} {raw : RawInstruction}

/-- What has been decoded has been decoded by the table for its size. -/
theorem run_of_decodeRaw
    {options : Options}
    (decoded : Engine.decodeRaw ⟨isa xlen, options⟩ word = .ok raw) :
    (word.size = 2 ∧
        (isa xlen).run Compressed.table word options.features = .ok raw) ∨
      (word.size = 4 ∧
        (isa xlen).run Wide.table word options.features = .ok raw) := by
  rw [Engine.decodeRaw] at decoded
  split at decoded
  · cases decoded
  · next table found =>
    simp only [isa] at found
    split at found
    · next two =>
      cases found
      exact .inl ⟨two, decoded⟩
    · next four =>
      cases found
      exact .inr ⟨four, decoded⟩
    · cases found

theorem Opcode.id_of_ofId?
    {number : Nat}
    {opcode : Opcode}
    (named : Opcode.ofId? number = some opcode) :
    opcode.id = number := by
  have each :
      ∀ number, number < Opcode.count →
        (Opcode.ofNat number).id = number := by
    decide +kernel
  rw [Opcode.ofId?] at named
  split at named
  · next small =>
    cases named
    exact each number small
  · cases named

/-- The operands are read in the format of a number. -/
theorem exists_format_of_readOperands
    {number : Nat}
    {result : Reading}
    (read : (isa xlen).readOperands number word = .ok result) :
    ∃ format,
      Format.ofId? number = some format ∧
        format.read xlen word = .ok result := by
  simp only [isa] at read
  split at read
  · next format named => exact ⟨format, named, read⟩
  · cases read

theorem read_of_readOperands
    {format : Format}
    {result : Reading}
    (read : (isa xlen).readOperands format.id word = .ok result) :
    format.read xlen word = .ok result := by
  rcases exists_format_of_readOperands read with ⟨found, named, read⟩
  rw [Format.ofId?_id, Option.some.injEq] at named
  rwa [named]

/-- No rule starts from the opcode of a compressed word. -/
theorem canonicalize_of_run_compressed
    {features : Features}
    (ran : (isa xlen).run Compressed.table word features = .ok raw) :
    Alias.canonicalize (isa xlen).aliases raw.form = raw.form := by
  rcases Isa.exists_fit_of_run isPreferred_of_mem ran with
    ⟨_, _, preferred, -⟩
  rcases (Option.any_eq_true _ _).mp preferred with ⟨opcode, -, fits⟩
  rw [Bool.and_eq_true, decide_eq_true_eq, decide_eq_true_eq] at fits
  rw [RawInstruction.form, ← fits.1]
  exact canonicalize_of_format?_eq_none fits.2 raw.operands

/-- What stands in the places for operands that are written. -/
def Slot.writtenOf {α : Type} : List Slot → List α → List α
  | .written :: slots, item :: items => item :: writtenOf slots items
  | _ :: slots, _ :: items => writtenOf slots items
  | _, _ => []

/-- The operands that are written stand in the places for them. -/
theorem Slot.writtenOf_of_fill
    {slots : List Slot}
    {shown operands : List Operand}
    (filled : fill xlen slots shown = some operands) :
    writtenOf slots operands = shown := by
  fun_induction fill xlen slots shown generalizing operands with
  | case1 =>
      cases filled
      rfl
  | case2 slots operand shown induction =>
      rcases Option.map_eq_some_iff.mp filled with ⟨rest, fills, rfl⟩
      rw [writtenOf, induction fills]
  | case3 _ _ _ induction | case4 _ _ _ induction | case5 _ _ _ induction =>
      rcases Option.map_eq_some_iff.mp filled with ⟨rest, fills, rfl⟩
      exact induction fills
  | case6 => cases filled

/-- Whether a form fills the places of what has been decoded. -/
def Form.FillsPlaces (xlen : Xlen) (raw : RawInstruction) (form : Form) :
    Prop :=
  ∃ (shown : Opcode) (meaning : Meaning),
    shown.meaning? = some meaning ∧
      meaning.base.id = raw.opcode ∧
      form.opcode = shown.id ∧
      Slot.fill xlen meaning.slots form.operands = some raw.operands

/-- What has been decoded is its preferred form, or fills its places. -/
theorem eq_or_fillsPlaces_of_decodeRaw
    {options : Options}
    (decoded : Engine.decodeRaw ⟨isa xlen, options⟩ word = .ok raw) :
    Alias.canonicalize (isa xlen).aliases raw.form = raw.form ∨
      Form.FillsPlaces xlen raw
        (Alias.canonicalize (isa xlen).aliases raw.form) := by
  rcases run_of_decodeRaw decoded with ⟨-, ran⟩ | ⟨four, ran⟩
  · exact .inl (canonicalize_of_run_compressed ran)
  · rw [or_iff_not_imp_left]
    intro rewritten
    rcases Alias.exists_of_canonicalize_ne rewritten with
      ⟨rule, member, reduced, same, reduces, result⟩
    rcases undone_of_mem xlen rule member with
      ⟨base, shown, format, slots, isBase, isShown, known, defined, fills⟩
    have baseFound : base.id = raw.opcode := isBase.symm.trans same
    have told := told_of_run ran baseFound known four
    rw [result]
    exact ⟨shown, ⟨base, slots⟩, defined, baseFound, isShown,
      fills told reduces⟩

/-- A word that decodes is described by the opcode of its preferred form. -/
theorem exists_describe_of_decodeWord
    {options : Options}
    {wantDetail : Bool}
    {decoded : Decoded}
    (success :
      Engine.decodeWord ⟨isa xlen, options⟩ word wantDetail = .ok decoded) :
    ∃ raw, ∃ opcode : Opcode, ∃ operands,
      Engine.decodeRaw ⟨isa xlen, options⟩ word = .ok raw ∧
        Alias.canonicalize (isa xlen).aliases raw.form =
          ⟨opcode.id, operands⟩ ∧
        decoded.instruction =
          Engine.describe ⟨isa xlen, options⟩ word ⟨opcode.id, operands⟩
            opcode.info raw.specifics wantDetail := by
  rcases Engine.exists_describe_of_decodeWord success with
    ⟨raw, info, read, described, rfl⟩
  rcases Option.map_eq_some_iff.mp described with ⟨opcode, named, rfl⟩
  have same := Opcode.id_of_ofId? named
  exact ⟨raw, opcode, _, read, by rw [same], by rw [same]⟩

end MachineCode.RiscV
