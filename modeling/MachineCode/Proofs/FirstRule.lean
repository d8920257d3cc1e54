import MachineCode.Proofs.Alias
import MachineCode.Proofs.PreferredTouch

/-!
# The first rule that accepts

The preferred form of a form is what the first rule in order makes of it that
is for its opcode and accepts its operands, or the form itself where there is
no such rule (`Alias.Prefers`). No rule is for the opcode that a rule of a
final list produces, so every rule refuses a form that has been reduced, and to
look for its preferred form changes nothing (`Alias.canonicalize_settles`).
-/

namespace MachineCode

namespace Alias

/-- Whether a rule is for the opcode of a form and gives it other operands. -/
def Accepts (rule : Alias) (form : Form) (operands : List Operand) : Prop :=
  rule.opcode = form.opcode ∧ rule.reduce form.operands = some operands

/-- Whether a rule is for another opcode or does not take the operands. -/
def Refuses (rule : Alias) (form : Form) : Prop :=
  ∀ operands, ¬ rule.Accepts form operands

/-- The form that rules prefer to a form when they are tried in order. -/
inductive Prefers (rules : List Alias) (form : Form) : Form → Prop where
  /-- Every rule refuses. -/
  | unchanged (refused : ∀ rule ∈ rules, rule.Refuses form) :
      Prefers rules form form
  /-- A rule accepts, and those before it refuse. -/
  | reduced
      {before after : List Alias}
      {rule : Alias}
      {operands : List Operand}
      (order : rules = before ++ rule :: after)
      (refused : ∀ earlier ∈ before, earlier.Refuses form)
      (accepts : rule.Accepts form operands) :
      Prefers rules form ⟨rule.preferred, operands⟩

variable {rules : List Alias} {rule : Alias} {form result : Form}

/-! ## One rule -/

theorem Accepts.form?_eq
    {operands : List Operand}
    (accepts : rule.Accepts form operands) :
    rule.form? form = some ⟨rule.preferred, operands⟩ := by
  rw [form?, if_pos accepts.1, accepts.2, Option.map_some]

theorem form?_eq_none_iff : rule.form? form = none ↔ rule.Refuses form := by
  constructor
  · intro nothing operands accepts
    rw [accepts.form?_eq] at nothing
    cases nothing
  · intro refuses
    cases applies : rule.form? form with
    | none => rfl
    | some preferred =>
        rcases exists_of_form? applies with ⟨same, operands, reduces, -⟩
        exact absurd ⟨same, reduces⟩ (refuses operands)

/-! ## A list of rules -/

/-- The rules are tried in order, and the first that accepts decides. -/
theorem canonicalize_eq_iff :
    canonicalize rules form = result ↔ Prefers rules form result := by
  constructor
  · rintro rfl
    rw [canonicalize]
    cases found : rules.findSome? fun rule => rule.form? form with
    | none =>
        rw [List.findSome?_eq_none_iff] at found
        exact .unchanged fun rule member =>
          form?_eq_none_iff.mp (found rule member)
    | some preferred =>
        rcases List.findSome?_eq_some_iff.mp found with
          ⟨before, rule, after, order, applies, earlier⟩
        rcases exists_of_form? applies with ⟨same, operands, reduces, rfl⟩
        exact .reduced order
          (fun other member => form?_eq_none_iff.mp (earlier other member))
          ⟨same, reduces⟩
  · intro prefers
    cases prefers with
    | unchanged refused =>
        have found :
            (rules.findSome? fun rule => rule.form? form) = none :=
          List.findSome?_eq_none_iff.mpr fun rule member =>
            form?_eq_none_iff.mpr (refused rule member)
        rw [canonicalize, found, Option.getD_none]
    | @reduced before after rule operands order refused accepts =>
        have found :
            (rules.findSome? fun rule => rule.form? form) =
              some ⟨rule.preferred, operands⟩ :=
          List.findSome?_eq_some_iff.mpr
            ⟨before, rule, after, order, accepts.form?_eq,
              fun earlier member =>
                form?_eq_none_iff.mpr (refused earlier member)⟩
        rw [canonicalize, found, Option.getD_some]

/-- No rule of a final list is for the opcode that one of them produces. -/
theorem opcode_ne_preferred
    {produced : Alias}
    (final : areFinal rules)
    (producer : produced ∈ rules)
    (member : rule ∈ rules) :
    rule.opcode ≠ produced.preferred := by
  rw [areFinal, List.all_eq_true] at final
  have each := List.all_eq_true.mp (final produced producer) rule member
  exact of_decide_eq_true each

/-- The rules of a final list refuse what they prefer. -/
theorem Prefers.refuses
    (prefers : Prefers rules form result)
    (final : areFinal rules) :
    ∀ rule ∈ rules, rule.Refuses result := by
  cases prefers with
  | unchanged refused => exact refused
  | @reduced before after produced operands order _ _ =>
      intro rule member other accepts
      have producer : produced ∈ rules := by
        rw [order]
        exact List.mem_append_right _ (List.mem_cons_self ..)
      exact opcode_ne_preferred final producer member accepts.1

end Alias

/-- The preferred forms of each family are final. -/
theorem Architecture.areFinal_aliases
    {architecture : Architecture}
    {isa : Isa}
    (known : architecture.isa? = some isa) :
    Alias.areFinal isa.aliases := by
  cases architecture with
  | arm64 =>
      cases known
      decide +kernel
  | riscV64 | riscV32 =>
      cases known
      decide +kernel
  | c64x =>
      cases known
      decide +kernel
  | unknown => cases known

/--
The preferred form is what the first rule in order that accepts makes of a
form, or the form itself. The preferred form of a preferred form is the same
one where the rules are final, as those of every family are.
-/
theorem Alias.canonicalize_settles (rules : List Alias) (form : Form) :
    (∀ result,
        canonicalize rules form = result ↔ Prefers rules form result) ∧
      (areFinal rules →
        canonicalize rules (canonicalize rules form) =
          canonicalize rules form) ∧
      ∀ (architecture : Architecture) (isa : Isa),
        architecture.isa? = some isa → areFinal isa.aliases := by
  refine ⟨fun _ => canonicalize_eq_iff, ?settled, ?families⟩
  case settled =>
    intro final
    have prefers : Prefers rules form (canonicalize rules form) :=
      canonicalize_eq_iff.mp rfl
    exact canonicalize_eq_iff.mpr (.unchanged (prefers.refuses final))
  case families =>
    intro architecture isa known
    exact Architecture.areFinal_aliases known

/-- The form `ubfm w1, w2, #28, #27`, for whose opcode there are six rules. -/
def fieldForm : Form where
  opcode := Arm64.Opcode.ubfm.id
  operands :=
    [.register ⟨.arm64, .general, 1, 32⟩, .register ⟨.arm64, .general, 2, 32⟩,
      .unsigned 28 6, .unsigned 27 6]

/-- The form `lsl w1, w2, #4`. -/
def shiftForm : Form where
  opcode := Arm64.Opcode.lslImmediate.id
  operands :=
    [.register ⟨.arm64, .general, 1, 32⟩, .register ⟨.arm64, .general, 2, 32⟩,
      .unsigned 4 6]

/-- The third rule for a field move decides, and no rule is left after it. -/
theorem Alias.canonicalize_settles_shift :
    Architecture.arm64.isa? = some Arm64.isa ∧
      areFinal Arm64.isa.aliases ∧
      Prefers Arm64.isa.aliases fieldForm shiftForm ∧
      canonicalize Arm64.isa.aliases shiftForm = shiftForm := by
  rcases canonicalize_settles Arm64.isa.aliases fieldForm with
    ⟨first, settled, families⟩
  have known : Architecture.arm64.isa? = some Arm64.isa := rfl
  have final : areFinal Arm64.isa.aliases := families .arm64 _ known
  have shift : canonicalize Arm64.isa.aliases fieldForm = shiftForm := by
    decide
  have again := settled final
  rw [shift] at again
  exact ⟨known, final, (first shiftForm).mp shift, again⟩

end MachineCode
