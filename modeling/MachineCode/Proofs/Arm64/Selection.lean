import MachineCode.Proofs.Arm64.Lossless
import MachineCode.Proofs.PreferredTouch

/-!
# Conditional selections

Three instructions select a register, or else the successor, the complement or
the negation of another. Between zeros that is shown as a set, between a
register and itself as a change of the register, both with the opposite
condition. `canonicalize_selection` says exactly when, by the register numbers
and the condition of the word.

A set has no name for the negation, which would be a set to zero. The rule for
changes leaves the zero register to the sets all the same, so that a negation
of the zero register is shown as it is (`canonicalize_zeroNegation`).
-/

namespace MachineCode.Arm64

/-- What a conditional selection does with the register it does not select. -/
inductive Selection where
  | increment
  | invert
  | negate
deriving DecidableEq, Repr

namespace Selection

/-- The opcode that is decoded. -/
def base : Selection → Opcode
  | increment => .csinc
  | invert => .csinv
  | negate => .csneg

/-- The opcode of a selection between zeros, if there is one. -/
def set? : Selection → Option Opcode
  | increment => some .cset
  | invert => some .csetm
  | negate => none

/-- The opcode of a selection between a register and itself. -/
def change : Selection → Opcode
  | increment => .cinc
  | invert => .cinv
  | negate => .cneg

/-- The rules for the opcode of a selection. -/
def rules (selection : Selection) : List Alias :=
  (selection.set?.map fun set =>
      preferred selection.base set conditionalSet).toList ++
    [preferred selection.base selection.change conditionalChange]

theorem canonicalize_base (selection : Selection) (operands : List Operand) :
    Alias.canonicalize isa.aliases ⟨selection.base.id, operands⟩ =
      Alias.canonicalize selection.rules ⟨selection.base.id, operands⟩ := by
  have own :
      (preferredForms.filter fun rule => rule.opcode = selection.base.id) =
        selection.rules := by
    cases selection <;> rfl
  rw [← own]
  exact (Alias.canonicalize_filter preferredForms _).symm

/-! ## The forms of a selection -/

section Forms

variable
  (selection : Selection)
  (wide : Bool)
  (destination first second : Nat)
  (condition : Condition)

/-- A data register as an operand. -/
def source (number : Nat) : Operand :=
  .register (generalRegister false wide number)

/-- A selection as it is decoded. -/
def form : Form :=
  ⟨selection.base.id,
    [source wide destination, source wide first, source wide second,
      .condition condition]⟩

/-- A set, which has no sources. -/
def setForm (set : Opcode) : Form :=
  ⟨set.id, [source wide destination, .condition condition.inverse]⟩

/-- A change, which has one source. -/
def changeForm : Form :=
  ⟨selection.change.id,
    [source wide destination, source wide first,
      .condition condition.inverse]⟩

end Forms

variable
  {selection : Selection}
  {wide : Bool}
  {destination first second : Nat}
  {condition : Condition}

@[simp]
theorem isZero_source (wide : Bool) (number : Nat) :
    isZero (source wide number) = decide (number = zeroRegister) := by
  simp [isZero, source, Operand.isRegister, Operand.register?,
    generalRegister]

/-- Registers of one width are the same if their numbers are. -/
@[simp]
theorem agrees_source (wide : Bool) (first second : Nat) :
    (source wide first).agrees (source wide second) =
      decide (first = second) := by
  simp [source, Operand.agrees, generalRegister]

/-- Whether a selection is one between zeros that can be written as a set. -/
def SetsZero (first second : Nat) (condition : Condition) : Prop :=
  first = zeroRegister ∧ second = zeroRegister ∧ isInvertible condition

/-- Whether a selection can be written as a change of a register. -/
def ChangesSource (first second : Nat) (condition : Condition) : Prop :=
  first = second ∧ first ≠ zeroRegister ∧ isInvertible condition

instance : Decidable (SetsZero first second condition) :=
  inferInstanceAs (Decidable (_ ∧ _ ∧ _))

instance : Decidable (ChangesSource first second condition) :=
  inferInstanceAs (Decidable (_ ∧ _ ∧ _))

theorem form?_set (set : Opcode) :
    (preferred selection.base set conditionalSet).form?
        (selection.form wide destination first second condition) =
      if SetsZero first second condition then
        some (setForm wide destination condition set)
      else
        none := by
  by_cases sets : SetsZero first second condition
  · rw [if_pos sets]
    rcases sets with ⟨firstZero, secondZero, invertible⟩
    simp [Alias.form?, preferred, form, conditionalSet, setForm, firstZero,
      secondZero, invertible]
  · rw [if_neg sets]
    rw [SetsZero] at sets
    simp [Alias.form?, preferred, form, conditionalSet, and_assoc, sets]

theorem form?_change :
    (preferred selection.base selection.change conditionalChange).form?
        (selection.form wide destination first second condition) =
      if ChangesSource first second condition then
        some (selection.changeForm wide destination first condition)
      else
        none := by
  by_cases changes : ChangesSource first second condition
  · rw [if_pos changes]
    rcases changes with ⟨rfl, nonzero, invertible⟩
    simp [Alias.form?, preferred, form, conditionalChange, changeForm,
      nonzero, invertible]
  · rw [if_neg changes]
    rw [ChangesSource] at changes
    simp [Alias.form?, preferred, form, conditionalChange, and_assoc,
      changes]

/-- A selection is shown as a set, or else as a change, or else as it is. -/
theorem canonicalize_form :
    Alias.canonicalize isa.aliases
        (selection.form wide destination first second condition) =
      (if SetsZero first second condition then
        selection.set?.map (setForm wide destination condition)
      else
        none).getD
        (if ChangesSource first second condition then
          selection.changeForm wide destination first condition
        else
          selection.form wide destination first second condition) := by
  rw [form, canonicalize_base, ← form, Alias.canonicalize, rules,
    List.findSome?_append, List.findSome?_singleton, form?_change]
  cases selection.set? with
  | none =>
      simp only [Option.map_none, ite_self]
      split <;> rfl
  | some set =>
      rw [Option.map_some, Option.map_some, Option.toList_some,
        List.findSome?_singleton, form?_set]
      split
      · rfl
      · split <;> rfl

theorem canonicalize_of_setsZero
    {set : Opcode}
    (isSet : selection.set? = some set)
    (sets : SetsZero first second condition) :
    Alias.canonicalize isa.aliases
        (selection.form wide destination first second condition) =
      setForm wide destination condition set := by
  rw [canonicalize_form, if_pos sets, isSet, Option.map_some,
    Option.getD_some]

theorem canonicalize_of_changesSource
    (changes : ChangesSource first second condition) :
    Alias.canonicalize isa.aliases
        (selection.form wide destination first second condition) =
      selection.changeForm wide destination first condition := by
  have noSet : ¬SetsZero first second condition := fun sets =>
    changes.2.1 sets.1
  rw [canonicalize_form, if_neg noSet, Option.getD_none, if_pos changes]

/-- Different sources, or no opposite condition, leave a selection as it is. -/
theorem canonicalize_of_not_writable
    (unwritable : ¬(first = second ∧ isInvertible condition)) :
    Alias.canonicalize isa.aliases
        (selection.form wide destination first second condition) =
      selection.form wide destination first second condition := by
  have noSet : ¬SetsZero first second condition := fun sets =>
    unwritable ⟨sets.1.trans sets.2.1.symm, sets.2.2⟩
  have noChange : ¬ChangesSource first second condition := fun changes =>
    unwritable ⟨changes.1, changes.2.2⟩
  rw [canonicalize_form, if_neg noSet, Option.getD_none, if_neg noChange]

theorem isInvertible_iff :
    isInvertible condition ↔ condition ≠ .always ∧ condition ≠ .never := by
  simp [isInvertible]

theorem setForm_ne_changeForm (set : Opcode) :
    setForm wide destination condition set ≠
      selection.changeForm wide destination first condition := by
  simp [setForm, changeForm]

theorem form_ne_setForm (set : Opcode) :
    selection.form wide destination first second condition ≠
      setForm wide destination condition set := by
  simp [form, setForm]

theorem form_ne_changeForm :
    selection.form wide destination first second condition ≠
      selection.changeForm wide destination first condition := by
  simp [form, changeForm]

theorem exists_set (signed : selection ≠ .negate) :
    ∃ set, selection.set? = some set := by
  cases selection with
  | increment | invert => exact ⟨_, rfl⟩
  | negate => exact absurd rfl signed

/-- The conditions under which a selection is shown in each of its forms. -/
theorem shown_iff
    (hasForm :
      ¬(selection = .negate ∧ first = zeroRegister ∧
        second = zeroRegister ∧ isInvertible condition)) :
    let raw := selection.form wide destination first second condition
    let shown := Alias.canonicalize isa.aliases raw
    (∀ set, selection.set? = some set →
      (shown = setForm wide destination condition set ↔
        first = zeroRegister ∧ second = zeroRegister ∧
          isInvertible condition)) ∧
      (shown = selection.changeForm wide destination first condition ↔
        first = second ∧ (first = zeroRegister → selection = .negate) ∧
          isInvertible condition) ∧
      (shown = raw ↔ ¬(first = second ∧ isInvertible condition)) := by
  intro raw shown
  by_cases writable : first = second ∧ isInvertible condition
  · rcases writable with ⟨rfl, invertible⟩
    by_cases zero : first = zeroRegister
    · have sets : SetsZero first first condition := ⟨zero, zero, invertible⟩
      have signed : selection ≠ .negate := fun negates =>
        hasForm ⟨negates, sets⟩
      rcases exists_set signed with ⟨set, isSet⟩
      have isShown : shown = setForm wide destination condition set :=
        canonicalize_of_setsZero isSet sets
      rw [isShown]
      refine ⟨?_, ?_, ?_⟩
      · intro other isOther
        cases isSet.symm.trans isOther
        exact iff_of_true rfl sets
      · exact iff_of_false (setForm_ne_changeForm set) fun both =>
          signed (both.2.1 zero)
      · exact iff_of_false (form_ne_setForm set).symm
          (not_not_intro ⟨rfl, invertible⟩)
    · have isShown :
          shown = selection.changeForm wide destination first condition :=
        canonicalize_of_changesSource ⟨rfl, zero, invertible⟩
      rw [isShown]
      refine ⟨?_, ?_, ?_⟩
      · intro set _
        exact iff_of_false (setForm_ne_changeForm set).symm fun sets =>
          zero sets.1
      · exact iff_of_true rfl
          ⟨rfl, fun isZero => absurd isZero zero, invertible⟩
      · exact iff_of_false form_ne_changeForm.symm
          (not_not_intro ⟨rfl, invertible⟩)
  · have isShown : shown = raw := canonicalize_of_not_writable writable
    rw [isShown]
    refine ⟨?_, ?_, ?_⟩
    · intro set _
      exact iff_of_false (form_ne_setForm set) fun sets =>
        writable ⟨sets.1.trans sets.2.1.symm, sets.2.2⟩
    · exact iff_of_false form_ne_changeForm fun both =>
        writable ⟨both.1, both.2.2⟩
    · exact iff_of_true rfl writable

/-! ## Selections that have been decoded -/

/-- Whether a word decodes to a selection. -/
structure Decodes
    (selection : Selection)
    (options : Options)
    (word : Word)
    (raw : RawInstruction) :
    Prop where
  decoded : Engine.decodeRaw ⟨isa, options⟩ word = .ok raw
  opcode_eq : raw.opcode = selection.base.id

variable
  {options : Options}
  {word : Word}
  {raw : RawInstruction}

/-- The registers and the condition of a selection stand in four fields. -/
theorem Decodes.form_eq (decodes : selection.Decodes options word raw) :
    raw.form =
      selection.form (word.value.testBit 31) (bitField word.value 0 5)
        (bitField word.value 5 5) (bitField word.value 16 5)
        (conditionOfCode (bitField word.value 12 4)) := by
  have known : selection.base.format? = some .select := by
    cases selection <;> rfl
  rcases Engine.run_of_decodeRaw (fun _ => rfl) decodes.decoded with
    ⟨four, ran⟩
  rcases exists_read_of_run ran decodes.opcode_eq.symm known with
    ⟨result, read, operands⟩
  rw [Format.read, readSelect_eq four] at read
  cases read
  rw [RawInstruction.form, decodes.opcode_eq, operands]
  rfl

end Selection

/--
A selection is shown as a set exactly between zeros, as a change exactly
between a register and itself where there is no set, both with the opposite
condition, and as it is otherwise. Of the words that have such a form only the
negations of the zero register are left out.
-/
theorem canonicalize_selection
    {selection : Selection}
    {options : Options}
    {word : Word}
    {raw : RawInstruction}
    (decodes : selection.Decodes options word raw) :
    let wide := word.value.testBit 31
    let destination := bitField word.value 0 5
    let first := bitField word.value 5 5
    let second := bitField word.value 16 5
    let condition := conditionOfCode (bitField word.value 12 4)
    let invertible := condition ≠ .always ∧ condition ≠ .never
    let shown := Alias.canonicalize isa.aliases raw.form
    ¬(selection = .negate ∧ first = zeroRegister ∧ second = zeroRegister ∧
        invertible) →
      raw.form =
          selection.form wide destination first second condition ∧
        (∀ set, selection.set? = some set →
          (shown = Selection.setForm wide destination condition set ↔
            first = zeroRegister ∧ second = zeroRegister ∧ invertible)) ∧
        (shown = selection.changeForm wide destination first condition ↔
          first = second ∧ (first = zeroRegister → selection = .negate) ∧
            invertible) ∧
        (shown = raw.form ↔ ¬(first = second ∧ invertible)) := by
  intro wide destination first second condition invertible shown hasForm
  have isForm := decodes.form_eq
  refine ⟨isForm, ?_⟩
  simp only [shown, invertible, ← Selection.isInvertible_iff] at hasForm ⊢
  rw [isForm]
  exact Selection.shown_iff hasForm

/-- A word of `csinc w0, wzr, wzr, ne`. -/
def setWord : Word :=
  ⟨[0xe0, 0x17, 0x9f, 0x1a], 0x1000, 0x1a9f17e0, by simp, by decide⟩

/-- A word of `csneg x0, x1, x1, eq`. -/
def negationWord : Word :=
  ⟨[0x20, 0x04, 0x81, 0xda], 0x1000, 0xda810420, by simp, by decide⟩

/-- A word of `csneg x0, xzr, xzr, eq`. -/
def zeroNegationWord : Word :=
  ⟨[0xe0, 0x07, 0x9f, 0xda], 0x1000, 0xda9f07e0, by simp, by decide⟩

/-- What a selection between a register and itself decodes to. -/
def selectionOf
    (selection : Selection)
    (wide : Bool)
    (number : Nat)
    (condition : Condition) :
    RawInstruction where
  opcode := selection.base.id
  operands :=
    (selection.form wide 0 number number condition).operands
  status := .success
  specifics := .arm64 { condition := some condition }

set_option maxRecDepth 20000 in
/-- A set of a register, and a change of a register. -/
theorem canonicalize_selection_setAndNegation :
    Selection.increment.Decodes {} setWord
        (selectionOf .increment false 31 .notEqual) ∧
      Alias.canonicalize isa.aliases
          (selectionOf .increment false 31 .notEqual).form =
        Selection.setForm false 0 .notEqual .cset ∧
      Selection.negate.Decodes {} negationWord
        (selectionOf .negate true 1 .equal) ∧
      Alias.canonicalize isa.aliases
          (selectionOf .negate true 1 .equal).form =
        Selection.negate.changeForm true 0 1 .equal := by
  have decodes :
      Selection.increment.Decodes {} setWord
        (selectionOf .increment false 31 .notEqual) :=
    ⟨rfl, rfl⟩
  have negates :
      Selection.negate.Decodes {} negationWord
        (selectionOf .negate true 1 .equal) :=
    ⟨rfl, rfl⟩
  refine ⟨decodes, ?_, negates, ?_⟩
  · exact
      ((canonicalize_selection decodes (by decide)).2.1 .cset rfl).mpr
        (by decide)
  · exact
      (canonicalize_selection negates (by decide)).2.2.1.mpr (by decide)

set_option maxRecDepth 20000 in
/-- A negation of the zero register is shown as it is. -/
theorem canonicalize_zeroNegation :
    Selection.negate.Decodes {} zeroNegationWord
        (selectionOf .negate true 31 .equal) ∧
      bitField zeroNegationWord.value 5 5 = zeroRegister ∧
      bitField zeroNegationWord.value 16 5 = zeroRegister ∧
      conditionOfCode (bitField zeroNegationWord.value 12 4) = .equal ∧
      Alias.canonicalize isa.aliases
          (selectionOf .negate true 31 .equal).form =
        (selectionOf .negate true 31 .equal).form ∧
      (selectionOf .negate true 31 .equal).form ≠
        Selection.negate.changeForm true 0 31 .equal := by
  exact ⟨⟨rfl, rfl⟩, by decide, by decide, by decide, by rfl, by decide⟩

end MachineCode.Arm64
