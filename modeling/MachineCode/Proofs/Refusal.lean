import MachineCode.Proofs.Reading

/-!
# Causes for which a read fails

A format reads a word part by part, and fails where a part does. If each part
fails for admitted causes only, so does the whole (`FailsOnly.bind`). A word
of four bytes has all the fields that its formats ask for, so that what it is
refused for are the values of its fields (`Architecture.mayRefuse`).
-/

namespace MachineCode

/--
The causes for which a family refuses an operand. The numbers of C64x
registers have gaps, and some of its pairs do not exist.
-/
def Architecture.mayRefuse (architecture : Architecture) :
    OperandError → Bool
  | .reserved _ _ => true
  | .invalidRegister _ _ | .oddRegisterPair _ | .unsupported _ =>
    architecture = .c64x
  | .fieldOutOfRange _ _ | .unknownFormat _ => false

/-- A read succeeds, or fails for one of the admitted causes. -/
inductive FailsOnly {α : Type} (admits : OperandError → Bool) :
    Read α → Prop where
  | ok (value : α) : FailsOnly admits (.ok value)
  | error {fault : OperandError} (admitted : admits fault) :
      FailsOnly admits (.error fault)

namespace FailsOnly

variable
  {α β : Type}
  {admits : OperandError → Bool}

theorem of_eq_ok
    {read : Read α}
    {value : α}
    (succeeds : read = .ok value) :
    FailsOnly admits read :=
  succeeds ▸ ok value

theorem admits_of_eq_error
    {read : Read α}
    (fails : FailsOnly admits read)
    {fault : OperandError}
    (failed : read = .error fault) :
    admits fault := by
  cases fails with
  | ok value => cases failed
  | error admitted =>
      cases failed
      exact admitted

/-- A read in two parts fails where one of them does. -/
theorem bindOk
    {first : Read α}
    {rest : α → Read β}
    (firstFails : FailsOnly admits first)
    (restFails : ∀ value, first = .ok value → FailsOnly admits (rest value)) :
    FailsOnly admits (first >>= rest) := by
  cases firstFails with
  | ok value => exact restFails value rfl
  | error admitted => exact error admitted

/-- As `bindOk`, if the second part does not depend on the first. -/
theorem bind
    {first : Read α}
    {rest : α → Read β}
    (firstFails : FailsOnly admits first)
    (restFails : ∀ value, FailsOnly admits (rest value)) :
    FailsOnly admits (first >>= rest) :=
  firstFails.bindOk fun value _ => restFails value

/-- What follows a refusal does not matter. -/
theorem throw
    {fault : OperandError}
    (admitted : admits fault)
    {rest : α → Read β} :
    FailsOnly admits (MonadExcept.throw fault >>= rest) :=
  error admitted

theorem map
    {read : Read α}
    (fails : FailsOnly admits read)
    (convert : α → β) :
    FailsOnly admits (convert <$> read) := by
  cases fails with
  | ok value => exact ok (convert value)
  | error admitted => exact error admitted

theorem ite
    {condition : Prop}
    [Decidable condition]
    {first second : Read α}
    (firstFails : FailsOnly admits first)
    (secondFails : FailsOnly admits second) :
    FailsOnly admits (if condition then first else second) := by
  split
  · exact firstFails
  · exact secondFails

section Words

variable {word : Word} (four : word.size = 4)
include four

theorem field
    {start length : Nat}
    (nonempty : length ≠ 0)
    (inside : start + length ≤ 32) :
    FailsOnly admits (word.field start length) :=
  of_eq_ok (field_eq_ok_of_size four nonempty inside)

/-- As `bind`, with the range of the field. -/
theorem bindField
    {start length : Nat}
    (nonempty : length ≠ 0)
    (inside : start + length ≤ 32)
    {rest : Nat → Read β}
    (restFails :
      ∀ value, value < 2 ^ length → FailsOnly admits (rest value)) :
    FailsOnly admits (word.field start length >>= rest) := by
  refine (field four nonempty inside).bindOk fun value read => ?_
  rw [field_eq_ok_of_size four nonempty inside] at read
  cases read
  exact restFails _ (bitField_lt ..)

theorem flag
    {position : Nat}
    (inside : position < 32) :
    FailsOnly admits (word.flag position) :=
  of_eq_ok (flag_eq_ok_of_size four inside)

end Words

end FailsOnly

end MachineCode
