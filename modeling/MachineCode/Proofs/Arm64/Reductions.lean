import MachineCode.Arm64.Preferred
import Mathlib.Algebra.Group.Int.Defs
import Mathlib.Algebra.Group.Nat.Defs

/-!
# What the rules for preferred forms take away

A rule that applies has found operands of one shape, and it gives some of
them. There is one lemma for each way of leaving out operands.
-/

namespace MachineCode.Arm64

variable {operands reduced : List Operand}

/-! ## Sums, comparisons and copies -/

theorem exists_of_stackMove
    (reduces : stackMove operands = some reduced) :
    ∃ destination source constant,
      constant.isConstant 0 ∧ operands = [destination, source, constant] ∧
        reduced = [destination, source] := by
  unfold stackMove at reduces
  split at reduces
  · next destination source constant =>
    simp only [Option.ite_none_right_eq_some, Option.some.injEq,
      Bool.and_eq_true] at reduces
    rcases reduces with ⟨⟨zero, -⟩, rfl⟩
    exact ⟨destination, source, constant, zero, rfl, rfl⟩
  · cases reduces

theorem exists_of_withoutDestination
    (reduces : withoutDestination operands = some reduced) :
    ∃ destination, isZero destination ∧ operands = destination :: reduced := by
  unfold withoutDestination at reduces
  split at reduces
  · next destination sources =>
    simp only [Option.ite_none_right_eq_some, Option.some.injEq] at reduces
    rcases reduces with ⟨zero, rfl⟩
    exact ⟨destination, zero, rfl⟩
  · cases reduces

theorem exists_of_withoutFirstSource
    (reduces : withoutFirstSource operands = some reduced) :
    ∃ destination first rest,
      isZero first ∧ operands = destination :: first :: rest ∧
        reduced = destination :: rest := by
  unfold withoutFirstSource at reduces
  split at reduces
  · next destination first rest =>
    simp only [Option.ite_none_right_eq_some, Option.some.injEq] at reduces
    rcases reduces with ⟨zero, rfl⟩
    exact ⟨destination, first, rest, zero, rfl, rfl⟩
  · cases reduces

/-- To move a register is to leave out the first source. -/
theorem withoutFirstSource_of_registerMove
    (reduces : registerMove operands = some reduced) :
    withoutFirstSource operands = some reduced := by
  unfold registerMove at reduces
  split at reduces
  · exact reduces
  · cases reduces

/-- To move a pattern is to leave out the first source. -/
theorem withoutFirstSource_of_logicalMove
    (reduces : logicalMove operands = some reduced) :
    withoutFirstSource operands = some reduced := by
  unfold logicalMove at reduces
  split at reduces
  · simp only [Option.ite_none_right_eq_some, Bool.and_eq_true] at reduces
    rcases reduces with ⟨⟨zero, -⟩, same⟩
    rw [withoutFirstSource, if_pos zero]
    exact same
  · cases reduces

theorem exists_of_withoutAddend
    (reduces : withoutAddend operands = some reduced) :
    ∃ destination first second addend,
      isZero addend ∧ operands = [destination, first, second, addend] ∧
        reduced = [destination, first, second] := by
  unfold withoutAddend at reduces
  split at reduces
  · next destination first second addend =>
    simp only [Option.ite_none_right_eq_some, Option.some.injEq] at reduces
    rcases reduces with ⟨zero, rfl⟩
    exact ⟨destination, first, second, addend, zero, rfl, rfl⟩
  · cases reduces

/-! ## Moves of constants -/

theorem exists_of_wideMove
    (reduces : wideMove operands = some reduced) :
    ∃ destination constant place,
      wideMoveParts? operands = some (destination, constant, place) ∧
        ¬(constant = 0 ∧ place ≠ 0) ∧
        reduced =
          [destination, .unsigned (constant * 2 ^ place % 2 ^ 64) 64] := by
  unfold wideMove at reduces
  split at reduces
  · cases reduces
  · next destination constant place parts =>
    simp only [Option.ite_none_left_eq_some, Option.some.injEq] at reduces
    rcases reduces with ⟨lowest, rfl⟩
    exact ⟨destination, constant, place, parts, lowest, rfl⟩

theorem exists_of_invertedMove
    (reduces : invertedMove operands = some reduced) :
    ∃ register constant place,
      wideMoveParts? operands = some (.register register, constant, place) ∧
        ¬(constant = 0 ∧ place ≠ 0) ∧
        ¬(register.size = 32 ∧ constant = 0xffff) ∧
        reduced =
          [.register register,
            .signed
              (if register.size = 32 then
                Int.bmod (-1 - constant * 2 ^ place) (2 ^ 32)
              else
                wrapSigned64 (-1 - constant * 2 ^ place))
              (register.size % 2 ^ 8)] := by
  unfold invertedMove at reduces
  split at reduces
  · cases reduces
  · next destination constant place parts =>
    cases destination with
    | register register =>
        simp only [Operand.register?, Option.ite_none_left_eq_some,
          Option.some.injEq] at reduces
        rcases reduces with ⟨lowest, narrow, rfl⟩
        exact ⟨register, constant, place, parts, lowest, narrow, rfl⟩
    | _ => cases reduces

/-! ## Bitfield moves -/

namespace Bitfield

theorem exists_of_ofOperands?
    {field : Bitfield}
    (found : ofOperands? operands = some field) :
    ∃ immr imms,
      operands =
        [field.destination, .register field.source, .immediate immr,
          .immediate imms] := by
  unfold ofOperands? at found
  split at found
  · next immr imms =>
    cases found
    exact ⟨immr, imms, rfl⟩
  · cases found

theorem exists_of_withConstants
    {condition : Bitfield → Bool}
    {constants : Bitfield → List Nat}
    (reduces : withConstants condition constants operands = some reduced) :
    ∃ field,
      ofOperands? operands = some field ∧ condition field ∧
        reduced =
          field.destination :: .register field.source ::
            (constants field).map smallConstant := by
  unfold withConstants at reduces
  split at reduces
  · cases reduces
  · next field found =>
    simp only [Option.ite_none_right_eq_some, Option.some.injEq] at reduces
    rcases reduces with ⟨passed, rfl⟩
    exact ⟨field, found, passed, rfl⟩

theorem exists_of_extension
    {condition : Register → Bool}
    {highest : Nat}
    (reduces : extension condition highest operands = some reduced) :
    ∃ field,
      ofOperands? operands = some field ∧ field.immr = 0 ∧
        field.imms = highest ∧
        reduced =
          [field.destination, .register { field.source with size := 32 }] := by
  unfold extension at reduces
  split at reduces
  · cases reduces
  · next field found =>
    simp only [Option.ite_none_right_eq_some, Option.some.injEq,
      Bool.and_eq_true, decide_eq_true_eq] at reduces
    rcases reduces with ⟨⟨⟨-, noRotation⟩, width⟩, rfl⟩
    exact ⟨field, found, noRotation, width, rfl⟩

end Bitfield

theorem exists_of_rotation
    (reduces : rotation operands = some reduced) :
    ∃ destination high low distance,
      high.agrees low ∧ operands = [destination, high, low, distance] ∧
        reduced = [destination, high, distance] := by
  unfold rotation at reduces
  split at reduces
  · next destination high low distance =>
    simp only [Option.ite_none_right_eq_some, Option.some.injEq] at reduces
    rcases reduces with ⟨agrees, rfl⟩
    exact ⟨destination, high, low, distance, agrees, rfl, rfl⟩
  · cases reduces

/-! ## Selections, branches and hints -/

theorem exists_of_conditionalSet
    (reduces : conditionalSet operands = some reduced) :
    ∃ destination first second condition,
      isZero first ∧ isZero second ∧
        operands = [destination, first, second, .condition condition] ∧
        reduced = [destination, .condition condition.inverse] := by
  unfold conditionalSet at reduces
  split at reduces
  · next destination first second condition =>
    simp only [Option.ite_none_right_eq_some, Option.some.injEq,
      Bool.and_eq_true] at reduces
    rcases reduces with ⟨⟨⟨firstZero, secondZero⟩, -⟩, rfl⟩
    exact ⟨destination, first, second, condition, firstZero, secondZero, rfl,
      rfl⟩
  · cases reduces

theorem exists_of_conditionalChange
    (reduces : conditionalChange operands = some reduced) :
    ∃ destination first second condition,
      first.agrees second ∧
        operands = [destination, first, second, .condition condition] ∧
        reduced = [destination, first, .condition condition.inverse] := by
  unfold conditionalChange at reduces
  split at reduces
  · next destination first second condition =>
    simp only [Option.ite_none_right_eq_some, Option.some.injEq,
      Bool.and_eq_true] at reduces
    rcases reduces with ⟨⟨⟨agrees, -⟩, -⟩, rfl⟩
    exact ⟨destination, first, second, condition, agrees, rfl, rfl⟩
  · cases reduces

theorem exists_of_linkReturn
    (reduces : linkReturn operands = some reduced) :
    ∃ target,
      target.isRegister linkRegister ∧ operands = [target] ∧
        reduced = [] := by
  unfold linkReturn at reduces
  split at reduces
  · next target =>
    simp only [Option.ite_none_right_eq_some, Option.some.injEq] at reduces
    rcases reduces with ⟨link, rfl⟩
    exact ⟨target, link, rfl, rfl⟩
  · cases reduces

theorem exists_of_hintOf
    {code : Int}
    (reduces : hintOf code operands = some reduced) :
    ∃ operand,
      operand.isConstant code ∧ operands = [operand] ∧ reduced = [] := by
  unfold hintOf at reduces
  split at reduces
  · next operand =>
    simp only [Option.ite_none_right_eq_some, Option.some.injEq] at reduces
    rcases reduces with ⟨constant, rfl⟩
    exact ⟨operand, constant, rfl, rfl⟩
  · cases reduces

end MachineCode.Arm64
