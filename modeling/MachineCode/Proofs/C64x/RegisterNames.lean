import MachineCode.C64x.Register
import MachineCode.Register.Name

/-!
# The names of C64x registers

The registers that instructions use (`Owns`): the general ones of both files,
and the control registers that are assigned. The name of a register tells its
number (`numberNamed?_name`): the control registers have names of their own,
one of which starts like those of file A.
-/

namespace MachineCode.C64x

/-- The registers of the instruction set. -/
inductive Owns : Register → Prop where
  | general {number : Nat} (small : number < 64) :
      Owns ⟨.c64x, .general, number, 32⟩
  | control {number : Nat} (assigned : Register.c64xControlExists number) :
      Owns ⟨.c64x, .control, 64 + number, 32⟩

/-! ## Registers that are read -/

theorem owns_of_find
    {side number : Nat}
    {file : RegisterFile}
    (isFile : files.file? side = some file)
    {register : Register}
    (read : file.find number = .ok register) :
    Owns register := by
  unfold RegisterFile.find at read
  split at read
  · next found =>
    cases read
    rw [RegisterFile.get?, Option.join_eq_some_iff] at found
    unfold Banks.file? at isFile
    split at isFile <;> cases isFile
    all_goals
      rcases List.mem_map.mp (List.mem_of_getElem? found) with
        ⟨index, inside, isRegister⟩
      rw [List.mem_range] at inside
      cases isRegister
      exact .general (by omega)
  · cases read

theorem owns_of_general
    {side number : Nat}
    {crossed : Bool}
    {register : Register}
    (read : general side crossed number = .ok register) :
    Owns register := by
  unfold general at read
  split at read
  · next found =>
    cases read
    rcases Option.bind_eq_some_iff.mp found with ⟨file, isFile, found⟩
    exact owns_of_find isFile (by rw [RegisterFile.find, found])
  · cases read

/-- A pair is a list of general registers. -/
theorem exists_of_generalPair
    {side number : Nat}
    {pair : Operand}
    (read : generalPair side number = .ok pair) :
    ∃ list, pair = .registers list ∧ ∀ half ∈ list.registers, Owns half := by
  unfold generalPair at read
  split at read
  · cases read
  next file isFile =>
  split at read
  · next list halves =>
    cases read
    refine ⟨list, rfl, ?_⟩
    unfold RegisterFile.pair at halves
    split at halves
    · cases halves
    split at halves
    · cases halves
    next low isLow =>
    split at halves
    · cases halves
    next high isHigh =>
    cases halves
    simp only [List.forall_mem_cons]
    exact ⟨owns_of_find isFile isHigh, owns_of_find isFile isLow, by simp⟩
  · cases read

theorem owns_of_find_control
    {number : Nat}
    {register : Register}
    (read : controlFile.find number = .ok register) :
    Owns register := by
  unfold RegisterFile.find at read
  split at read
  · next found =>
    cases read
    rw [RegisterFile.get?, Option.join_eq_some_iff] at found
    rcases List.mem_map.mp (List.mem_of_getElem? found) with
      ⟨index, -, isRegister⟩
    unfold controlRegister? at isRegister
    split at isRegister
    · next assigned =>
      cases isRegister
      exact .control assigned
    · cases isRegister
  · cases read

/-! ## Names -/

/-- The number of the control register that has a name. -/
def controlNamed? (name : String) : Option Nat :=
  (List.range 32).find? fun number =>
    Register.c64xControlName? number = some name

/-- The number of the register that has a name. -/
def numberNamed? (name : String) : Option Nat :=
  let index (digits : List Char) : Nat := Nat.ofDigitChars 10 digits 0
  match controlNamed? name with
  | some number => some (64 + number)
  | none =>
    match name.toList with
    | 'a' :: digits => some (index digits)
    | 'b' :: digits => some (32 + index digits)
    | _ => none

/-- Assigned control registers have numbers of five bits. -/
theorem lt_of_c64xControlExists
    {number : Nat}
    (assigned : Register.c64xControlExists number) :
    number < 32 := by
  rcases Option.isSome_iff_exists.mp assigned with ⟨name, named⟩
  unfold Register.c64xControlName? at named
  split at named <;> first | decide | cases named

/-- The name of a register tells its number. -/
theorem numberNamed?_name {register : Register} (owned : Owns register) :
    numberNamed? register.name = some register.id := by
  have each :
      (∀ number < 64, numberNamed? (Register.c64xName number) = some number) ∧
      ∀ number < 32, Register.c64xControlExists number →
        numberNamed? (Register.c64xName (64 + number)) =
          some (64 + number) := by
    decide +kernel
  cases owned with
  | general small => exact each.1 _ small
  | control assigned =>
      exact each.2 _ (lt_of_c64xControlExists assigned) assigned

namespace Owns

variable {left right register : Register}

theorem size_eq (owned : Owns register) : register.size = 32 := by
  cases owned <;> rfl

theorem name_ne_unknown (owned : Owns register) :
    register.name ≠ Register.unknownName := by
  intro unknown
  have told := numberNamed?_name owned
  rw [unknown, show numberNamed? Register.unknownName = none by decide +kernel]
    at told
  cases told

end Owns

end MachineCode.C64x
