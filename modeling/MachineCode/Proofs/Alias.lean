import MachineCode.Alias

/-!
# The rule that was applied

`Alias.canonicalize` leaves a form as it is, or gives what one of the rules
makes of it (`Alias.canonicalize_eq_or_exists`). A statement about preferred
forms is therefore proved for each rule.
-/

namespace MachineCode.Alias

variable {rules : List Alias} {raw form : Form}

/-- A rule that applies is for the opcode, and it reduces the operands. -/
theorem exists_of_form?
    {rule : Alias}
    (applies : rule.form? raw = some form) :
    rule.opcode = raw.opcode ∧
      ∃ operands,
        rule.reduce raw.operands = some operands ∧
          form = ⟨rule.preferred, operands⟩ := by
  rw [Alias.form?] at applies
  split at applies
  · next same =>
    rcases Option.map_eq_some_iff.mp applies with ⟨operands, reduces, rfl⟩
    exact ⟨same, operands, reduces, rfl⟩
  · cases applies

/-- The preferred form is the form itself, or one that a rule gives. -/
theorem canonicalize_eq_or_exists (rules : List Alias) (form : Form) :
    canonicalize rules form = form ∨
      ∃ rule ∈ rules, rule.form? form = some (canonicalize rules form) := by
  rw [canonicalize]
  cases found : rules.findSome? fun rule => rule.form? form with
  | none => exact .inl rfl
  | some preferred =>
      rcases List.exists_of_findSome?_eq_some found with
        ⟨rule, member, applies⟩
      exact .inr ⟨rule, member, applies⟩

/-- A form that is not the preferred one has been reduced by a rule. -/
theorem exists_of_canonicalize_ne
    (rewritten : canonicalize rules raw ≠ raw) :
    ∃ rule ∈ rules, ∃ operands,
      rule.opcode = raw.opcode ∧
        rule.reduce raw.operands = some operands ∧
        canonicalize rules raw = ⟨rule.preferred, operands⟩ := by
  rcases canonicalize_eq_or_exists rules raw with same | applied
  · exact absurd same rewritten
  · rcases applied with ⟨rule, member, applies⟩
    rcases exists_of_form? applies with ⟨same, operands, reduces, result⟩
    exact ⟨rule, member, operands, same, reduces, result⟩

/-- Where some rule applies, a rule gives the preferred form. -/
theorem exists_of_form?_isSome
    {rule : Alias}
    (member : rule ∈ rules)
    (applies : (rule.form? raw).isSome) :
    ∃ first ∈ rules, ∃ operands,
      first.opcode = raw.opcode ∧
        first.reduce raw.operands = some operands ∧
        canonicalize rules raw = ⟨first.preferred, operands⟩ := by
  have found : (rules.findSome? fun rule => rule.form? raw).isSome :=
    List.findSome?_isSome_iff.mpr ⟨rule, member, applies⟩
  rcases Option.isSome_iff_exists.mp found with ⟨form, isFirst⟩
  rcases List.exists_of_findSome?_eq_some isFirst with
    ⟨first, isRule, firstApplies⟩
  rcases exists_of_form? firstApplies with ⟨same, operands, reduces, rfl⟩
  refine ⟨first, isRule, operands, same, reduces, ?_⟩
  rw [canonicalize, isFirst, Option.getD_some]

/-- Only the rules for the opcode of a form decide on its preferred form. -/
theorem canonicalize_filter (rules : List Alias) (form : Form) :
    canonicalize (rules.filter fun rule => rule.opcode = form.opcode) form =
      canonicalize rules form := by
  rw [canonicalize, canonicalize]
  congr 1
  induction rules with
  | nil => rfl
  | cons rule rules induction =>
      rw [List.filter_cons, List.findSome?_cons, form?]
      by_cases own : rule.opcode = form.opcode
      · rw [if_pos (by simpa using own), List.findSome?_cons, form?,
          induction]
      · rw [if_neg (by simpa using own), if_neg own, induction]

end MachineCode.Alias
