import MachineCode.Arm64.LogicalImmediate
import Mathlib.Algebra.Group.Nat.Defs

/-!
# The patterns of logical immediates

A bit of a pattern is one if its place, moved by the rotation and taken modulo
the period, lies below the number of ones (`BitPattern.testBit_value`). Runs
of ones start where the period divides the moved place, so patterns with the
same bits have the same period, and then the same rotation and the same number
of ones (`BitPattern.eq_of_value_eq`).

The fields of an instruction encode a pattern in one way, but for the bits of
the rotation that reach beyond the period (`BitPattern.fields_eq`).
-/

namespace MachineCode.Arm64

/-! ## The bits of a pattern -/

/-- The bits that stay when others leave at the low end. -/
theorem div_two_pow_lt
    {width value distance : Nat}
    (small : value < 2 ^ width)
    (rotates : distance < width) :
    value / 2 ^ distance < 2 ^ (width - distance) := by
  rw [Nat.div_lt_iff_lt_mul (Nat.two_pow_pos distance), ← Nat.pow_add,
    Nat.sub_add_cancel (Nat.le_of_lt rotates)]
  exact small

theorem testBit_rotateRight
    {width value distance place : Nat}
    (small : value < 2 ^ width)
    (rotates : distance < width)
    (inside : place < width) :
    (rotateRight width value distance).testBit place =
      value.testBit ((place + distance) % width) := by
  rw [rotateRight, Nat.add_comm (value / 2 ^ distance), Nat.mul_comm,
    Nat.testBit_two_pow_mul_add _ (div_two_pow_lt small rotates)]
  split
  · next low =>
    rw [Nat.testBit_div_two_pow, Nat.mod_eq_of_lt (by omega)]
  · next high =>
    -- The bits that leave the low end come in at the high end.
    have wrapped :
        (place + distance) % width = place - (width - distance) := by
      rw [Nat.mod_eq_sub_mod (by omega), Nat.mod_eq_of_lt (by omega)]
      omega
    rw [Nat.testBit_mod_two_pow, wrapped, decide_eq_true (by omega),
      Bool.true_and]

theorem rotateRight_lt
    {width value distance : Nat}
    (small : value < 2 ^ width)
    (rotates : distance < width) :
    rotateRight width value distance < 2 ^ width := by
  have rest_lt : value % 2 ^ distance + 1 ≤ 2 ^ distance :=
    Nat.mod_lt _ (Nat.two_pow_pos distance)
  calc rotateRight width value distance
      < 2 ^ (width - distance) +
          value % 2 ^ distance * 2 ^ (width - distance) :=
        Nat.add_lt_add_right (div_two_pow_lt small rotates) _
    _ = (value % 2 ^ distance + 1) * 2 ^ (width - distance) := by
        rw [Nat.succ_mul, Nat.add_comm]
    _ ≤ 2 ^ distance * 2 ^ (width - distance) :=
        Nat.mul_le_mul_right _ rest_lt
    _ = 2 ^ width := by
        rw [← Nat.pow_add, Nat.add_sub_cancel' (Nat.le_of_lt rotates)]

theorem testBit_repeated
    {width element : Nat}
    (small : element < 2 ^ width)
    {count place : Nat}
    (inside : place < width * count) :
    (repeated width element count).testBit place =
      element.testBit (place % width) := by
  induction count generalizing place with
  | zero => exact absurd inside (Nat.not_lt_zero _)
  | succ count induction =>
      rw [repeated, Nat.add_comm element, Nat.testBit_two_pow_mul_add _ small]
      split
      · next low => rw [Nat.mod_eq_of_lt low]
      · next high =>
        rw [Nat.mul_succ] at inside
        rw [induction (by omega), Nat.mod_eq_sub_mod (Nat.not_lt.mp high)]

namespace BitPattern

/-- Whether the fields of an instruction can encode the pattern. -/
structure Proper (pattern : BitPattern) : Prop where
  nonempty : 0 < pattern.ones
  notFull : pattern.ones < pattern.period
  rotates : pattern.rotation < pattern.period

/-- Whether a place of the pattern, repeated forever, is one. -/
def Covers (pattern : BitPattern) (place : Nat) : Prop :=
  (place + pattern.rotation) % pattern.period < pattern.ones

instance (pattern : BitPattern) (place : Nat) :
    Decidable (pattern.Covers place) :=
  inferInstanceAs
    (Decidable
      ((place + pattern.rotation) % pattern.period < pattern.ones))

theorem testBit_value
    {pattern : BitPattern}
    (proper : pattern.Proper)
    {width place : Nat}
    (divides : pattern.period ∣ width)
    (inside : place < width) :
    (pattern.value width).testBit place = decide (pattern.Covers place) := by
  have positive : 0 < pattern.period :=
    Nat.lt_of_le_of_lt (Nat.zero_le _) proper.rotates
  have run_lt : 2 ^ pattern.ones - 1 < 2 ^ pattern.period := by
    have larger :=
      Nat.pow_lt_pow_right (by decide : 1 < 2) proper.notFull
    exact Nat.lt_of_le_of_lt (Nat.sub_le _ _) larger
  have element_lt : pattern.element < 2 ^ pattern.period :=
    rotateRight_lt run_lt proper.rotates
  rw [value, testBit_repeated element_lt
      (by rwa [Nat.mul_div_cancel' divides]),
    element, testBit_rotateRight run_lt proper.rotates
      (Nat.mod_lt _ positive),
    Nat.mod_add_mod, Nat.testBit_two_pow_sub_one]
  rfl

/-- A pattern goes on behind the register as in it. -/
theorem covers_mod
    {pattern : BitPattern}
    {width : Nat}
    (divides : pattern.period ∣ width)
    (place : Nat) :
    pattern.Covers (place % width) ↔ pattern.Covers place := by
  rw [Covers, Covers, Nat.add_mod, Nat.mod_mod_of_dvd _ divides,
    ← Nat.add_mod]

/-! ## Patterns with the same bits -/

/-- A run of ones starts where the period divides the moved place. -/
theorem Proper.starts_iff
    {pattern : BitPattern}
    (proper : pattern.Proper)
    (place : Nat) :
    ¬pattern.Covers place ∧ pattern.Covers (place + 1) ↔
      pattern.period ∣ place + 1 + pattern.rotation := by
  have nonempty := proper.nonempty
  have notFull := proper.notFull
  have next :
      (place + 1 + pattern.rotation) % pattern.period =
        if (place + pattern.rotation) % pattern.period + 1 =
            pattern.period then
          0
        else
          (place + pattern.rotation) % pattern.period + 1 := by
    have below :=
      Nat.mod_lt (place + pattern.rotation)
        (Nat.lt_of_le_of_lt (Nat.zero_le _) notFull)
    rw [Nat.add_right_comm, ← Nat.mod_add_mod]
    split
    · next wraps => rw [wraps, Nat.mod_self]
    · exact Nat.mod_eq_of_lt (by omega)
  rw [Covers, Covers, Nat.dvd_iff_mod_eq_zero, next]
  split <;> omega

section Same

variable
  {left right : BitPattern}
  (leftProper : left.Proper)
  (rightProper : right.Proper)
  (same : ∀ place, left.Covers place ↔ right.Covers place)
include leftProper rightProper same

theorem dvd_iff_of_covers (place : Nat) :
    left.period ∣ place + 1 + left.rotation ↔
      right.period ∣ place + 1 + right.rotation := by
  rw [← leftProper.starts_iff, ← rightProper.starts_iff, same, same]

/-- The distance between two starts of the left pattern fits the right. -/
theorem period_dvd_of_covers : right.period ∣ left.period := by
  have rotates := leftProper.rotates
  obtain ⟨place, starts⟩ :
      ∃ place, place + 1 + left.rotation = left.period :=
    ⟨left.period - 1 - left.rotation, by omega⟩
  have first :=
    (dvd_iff_of_covers leftProper rightProper same place).mp
      (starts ▸ Nat.dvd_refl _)
  have second :=
    (dvd_iff_of_covers leftProper rightProper same
      (place + left.period)).mp
      ⟨2, by omega⟩
  have apart :
      place + left.period + 1 + right.rotation =
        place + 1 + right.rotation + left.period := by
    omega
  rw [apart] at second
  exact (Nat.dvd_add_right first).mp second

theorem rotation_eq_of_covers (samePeriod : left.period = right.period) :
    left.rotation = right.rotation := by
  have leftRotates := leftProper.rotates
  have rightRotates := rightProper.rotates
  obtain ⟨place, starts⟩ :
      ∃ place, place + 1 + left.rotation = left.period :=
    ⟨left.period - 1 - left.rotation, by omega⟩
  rcases (dvd_iff_of_covers leftProper rightProper same place).mp
      (starts ▸ Nat.dvd_refl _) with
    ⟨factor, multiple⟩
  -- The other moved place is positive and below twice the period.
  have single : factor = 1 := by
    have positive : factor ≠ 0 := by
      rintro rfl
      omega
    have small : factor < 2 := by
      refine Nat.lt_of_not_le fun large => ?_
      have twice := Nat.mul_le_mul_left right.period large
      omega
    omega
  rw [single] at multiple
  omega

omit rightProper in
/-- The first zero behind a run of the left pattern ends the right one. -/
theorem ones_le_of_covers
    (samePeriod : left.period = right.period)
    (sameRotation : left.rotation = right.rotation) :
    right.ones ≤ left.ones := by
  have rotates := leftProper.rotates
  have notFull := leftProper.notFull
  obtain ⟨place, moved⟩ :
      ∃ place, place + left.rotation = left.ones + left.period :=
    ⟨left.ones + left.period - left.rotation, by omega⟩
  have isEnd : (place + left.rotation) % left.period = left.ones := by
    rw [moved, Nat.add_mod_right, Nat.mod_eq_of_lt notFull]
  have uncovered : ¬right.Covers place := by
    rw [← same, Covers, isEnd]
    exact Nat.lt_irrefl _
  rwa [Covers, ← samePeriod, ← sameRotation, isEnd, Nat.not_lt]
    at uncovered

theorem eq_of_covers : left = right := by
  have samePeriod : left.period = right.period :=
    Nat.dvd_antisymm
      (period_dvd_of_covers rightProper leftProper fun place =>
        (same place).symm)
      (period_dvd_of_covers leftProper rightProper same)
  have sameRotation :=
    rotation_eq_of_covers leftProper rightProper same samePeriod
  have sameOnes : left.ones = right.ones :=
    Nat.le_antisymm
      (ones_le_of_covers rightProper
        (fun place => (same place).symm) samePeriod.symm sameRotation.symm)
      (ones_le_of_covers leftProper same samePeriod sameRotation)
  cases left
  cases right
  simp_all

end Same

/-- Patterns that fill a register with the same value are the same. -/
theorem eq_of_value_eq
    {left right : BitPattern}
    (leftProper : left.Proper)
    (rightProper : right.Proper)
    {width : Nat}
    (positive : 0 < width)
    (leftDivides : left.period ∣ width)
    (rightDivides : right.period ∣ width)
    (same : left.value width = right.value width) :
    left = right := by
  refine eq_of_covers leftProper rightProper fun place => ?_
  rw [← covers_mod leftDivides, ← covers_mod rightDivides, ← decide_eq_decide,
    ← testBit_value leftProper leftDivides (Nat.mod_lt _ positive),
    ← testBit_value rightProper rightDivides (Nat.mod_lt _ positive), same]

/-! ## The fields of a pattern -/

/-- The logarithm of the period that two of the fields encode. -/
def exponent (n imms : Nat) : Nat :=
  Nat.log2 (64 * n + (63 - imms))

theorem eq_of_ofFields?
    {n immr imms : Nat}
    {pattern : BitPattern}
    (encoded : ofFields? n immr imms = some pattern) :
    exponent n imms ≠ 0 ∧
      imms % 2 ^ exponent n imms + 1 < 2 ^ exponent n imms ∧
      pattern =
        ⟨2 ^ exponent n imms, imms % 2 ^ exponent n imms + 1,
          immr % 2 ^ exponent n imms⟩ := by
  simp only [ofFields?, Option.ite_none_left_eq_some, not_or,
    Option.some.injEq] at encoded
  rcases encoded with ⟨⟨nonzero, notFull⟩, rfl⟩
  have below : imms % 2 ^ exponent n imms < 2 ^ exponent n imms :=
    Nat.mod_lt _ (Nat.two_pow_pos _)
  refine ⟨nonzero, ?_, rfl⟩
  rw [exponent] at below ⊢
  omega

theorem proper_of_ofFields?
    {n immr imms : Nat}
    {pattern : BitPattern}
    (encoded : ofFields? n immr imms = some pattern) :
    pattern.Proper := by
  rcases eq_of_ofFields? encoded with ⟨-, notFull, rfl⟩
  exact ⟨Nat.succ_pos _, notFull, Nat.mod_lt _ (Nat.two_pow_pos _)⟩

/-- A period that fits a register of a power of two divides its width. -/
theorem period_dvd_of_ofFields?
    {n immr imms : Nat}
    {pattern : BitPattern}
    (encoded : ofFields? n immr imms = some pattern)
    {logarithm : Nat}
    (fits : pattern.period ≤ 2 ^ logarithm) :
    pattern.period ∣ 2 ^ logarithm := by
  rcases eq_of_ofFields? encoded with ⟨-, -, rfl⟩
  exact Nat.pow_dvd_pow 2 ((Nat.pow_le_pow_iff_right (by decide)).mp fits)

/--
The joined fields, of which the logarithm is taken, are the period and what
the complement of the last field leaves over.
-/
theorem join_eq_of_exponent
    {n imms : Nat}
    (bit : n < 2)
    (small : imms < 64)
    (nonzero : exponent n imms ≠ 0) :
    64 * n + (63 - imms) =
      2 ^ exponent n imms +
        (2 ^ exponent n imms - 1 - imms % 2 ^ exponent n imms) := by
  have each :
      ∀ n < 2, ∀ imms < 64, exponent n imms ≠ 0 →
        64 * n + (63 - imms) =
          2 ^ exponent n imms +
            (2 ^ exponent n imms - 1 - imms % 2 ^ exponent n imms) := by
    decide
  exact each n bit imms small nonzero

/-- What of the fields of a pattern is determined by it. -/
theorem fields_eq
    {n immr imms otherN otherR otherS : Nat}
    {pattern : BitPattern}
    (bit : n < 2)
    (otherBit : otherN < 2)
    (small : imms < 64)
    (otherSmall : otherS < 64)
    (encoded : ofFields? n immr imms = some pattern)
    (otherEncoded : ofFields? otherN otherR otherS = some pattern) :
    n = otherN ∧ imms = otherS ∧
      immr % 2 ^ exponent n imms = otherR % 2 ^ exponent n imms := by
  rcases eq_of_ofFields? encoded with ⟨nonzero, -, rfl⟩
  rcases eq_of_ofFields? otherEncoded with ⟨otherNonzero, -, same⟩
  simp only [mk.injEq, Nat.add_right_cancel_iff] at same
  rcases same with ⟨samePeriod, sameOnes, sameRotation⟩
  have sameExponent := (Nat.pow_right_inj (by decide)).mp samePeriod
  have joined := join_eq_of_exponent bit small nonzero
  have otherJoined := join_eq_of_exponent otherBit otherSmall otherNonzero
  rw [sameOnes, sameExponent] at joined
  refine ⟨by omega, by omega, ?_⟩
  rw [sameRotation, sameExponent]

end BitPattern

end MachineCode.Arm64
