import MachineCode.Proofs.Arm64.LogicalImmediate
import Mathlib.Data.Nat.Bitwise
import Mathlib.Data.Nat.Periodic

/-!
# Patterns that wide moves build

A wide move builds a number whose ones lie in sixteen bits at a multiple of
sixteen (`FitsHalfword`), or the complement of such a number. A pattern that
fills the register is recovered from its value (`BitPattern.ofValue?_value`),
and then its number of ones and its rotation tell whether a wide move builds
it (`BitPattern.fitsHalfword_value_iff`). A pattern that is repeated has ones,
and zeros, in both halves of the register, and no wide move builds it.

The test for complements leaves the two lowest of the sixteen bits out: it
finds the complements of the constants that are multiples of four
(`BitPattern.isWideMove_value_iff`).
-/

namespace MachineCode.Arm64

/-! ## Sixteen bits at a multiple of sixteen -/

/--
Whether a value of `width` bits is a constant of sixteen bits, the lowest
`low` of them zero, at a multiple of sixteen.
-/
def FitsHalfword (low width value : Nat) : Prop :=
  ∃ constant place,
    constant < 2 ^ 16 ∧ 2 ^ low ∣ constant ∧ 16 * place < width ∧
      value = constant * 2 ^ (16 * place)

/-- A value fits if all its ones lie within the sixteen bits. -/
theorem fitsHalfword_iff_testBit {low width value : Nat} :
    FitsHalfword low width value ↔
      ∃ place, 16 * place < width ∧
        ∀ index, value.testBit index →
          16 * place + low ≤ index ∧ index < 16 * place + 16 := by
  constructor
  · rintro ⟨constant, place, small, ⟨factor, rfl⟩, inside, rfl⟩
    refine ⟨place, inside, fun index isOne => ?_⟩
    rw [Nat.testBit_mul_two_pow, Bool.and_eq_true, decide_eq_true_eq]
      at isOne
    rcases isOne with ⟨above, isOne⟩
    have below : index - 16 * place < 16 := by
      by_contra beyond
      have larger := Nat.pow_le_pow_right (by decide : 0 < 2)
        (Nat.not_lt.mp beyond)
      rw [Nat.testBit_lt_two_pow (Nat.lt_of_lt_of_le small larger)] at isOne
      cases isOne
    rw [Nat.testBit_two_pow_mul, Bool.and_eq_true, decide_eq_true_eq]
      at isOne
    omega
  · rintro ⟨place, inside, within⟩
    refine ⟨value / 2 ^ (16 * place), place, ?_, ?_, inside, ?_⟩
    · refine Nat.lt_pow_two_of_testBit _ fun index beyond => ?_
      rw [Nat.testBit_div_two_pow]
      by_contra isOne
      have := within _ (Bool.eq_true_of_not_eq_false isOne)
      omega
    · refine Nat.dvd_of_mod_eq_zero (Nat.zero_of_testBit_eq_false ?_)
      intro index
      rw [Nat.testBit_mod_two_pow, Nat.testBit_div_two_pow]
      by_contra isOne
      rw [Bool.not_eq_false, Bool.and_eq_true, decide_eq_true_eq] at isOne
      have := within _ isOne.2
      omega
    · refine Nat.eq_of_testBit_eq fun index => ?_
      rw [Nat.testBit_mul_two_pow, Nat.testBit_div_two_pow]
      by_cases above : 16 * place ≤ index
      · rw [decide_eq_true above, Bool.true_and, Nat.sub_add_cancel above]
      · rw [decide_eq_false above, Bool.false_and]
        by_contra isOne
        have := within _ (Bool.eq_true_of_not_eq_false isOne)
        omega

/-! ## Values of patterns -/

theorem repeated_lt
    {width element : Nat}
    (small : element < 2 ^ width)
    (count : Nat) :
    repeated width element count < 2 ^ (width * count) := by
  induction count with
  | zero => exact Nat.one_pos
  | succ count induction =>
      calc repeated width element (count + 1)
          < 2 ^ width + 2 ^ width * repeated width element count :=
            Nat.add_lt_add_right small _
        _ = 2 ^ width * (repeated width element count + 1) := by
            rw [Nat.mul_succ, Nat.add_comm]
        _ ≤ 2 ^ width * 2 ^ (width * count) :=
            Nat.mul_le_mul_left _ induction
        _ = 2 ^ (width * (count + 1)) := by
            rw [← Nat.pow_add, Nat.mul_succ, Nat.add_comm]

namespace BitPattern

section Pattern

variable
  {pattern : BitPattern}
  (proper : pattern.Proper)
include proper

theorem Proper.element_lt : pattern.element < 2 ^ pattern.period := by
  have larger := Nat.pow_lt_pow_right (by decide : 1 < 2) proper.notFull
  exact rotateRight_lt (Nat.lt_of_le_of_lt (Nat.sub_le _ _) larger)
    proper.rotates

variable
  {width : Nat}
  (divides : pattern.period ∣ width)
include divides

theorem Proper.value_lt : pattern.value width < 2 ^ width := by
  have bound := repeated_lt proper.element_lt (width / pattern.period)
  rwa [Nat.mul_div_cancel' divides] at bound

/-- The ones of a value are the places that the pattern covers. -/
theorem Proper.testBit_value_iff (index : Nat) :
    (pattern.value width).testBit index ↔
      index < width ∧ pattern.Covers index := by
  by_cases inside : index < width
  · rw [testBit_value proper divides inside, decide_eq_true_eq]
    simp [inside]
  · have larger :=
      Nat.pow_le_pow_right (by decide : 0 < 2) (Nat.not_lt.mp inside)
    rw [Nat.testBit_lt_two_pow
      (Nat.lt_of_lt_of_le (proper.value_lt divides) larger)]
    simp [inside]

end Pattern

/-! ## Complements -/

/-- The pattern whose ones are the zeros of a pattern. -/
def complement (pattern : BitPattern) : BitPattern :=
  ⟨pattern.period, pattern.period - pattern.ones,
    (pattern.rotation + (pattern.period - pattern.ones)) % pattern.period⟩

section Complement

variable
  {pattern : BitPattern}
  (proper : pattern.Proper)
include proper

theorem Proper.complement : pattern.complement.Proper := by
  have nonempty := proper.nonempty
  have notFull := proper.notFull
  exact ⟨Nat.sub_pos_of_lt notFull, Nat.sub_lt (by omega) nonempty,
    Nat.mod_lt _ (by omega)⟩

theorem Proper.covers_complement (index : Nat) :
    pattern.complement.Covers index ↔ ¬pattern.Covers index := by
  have nonempty := proper.nonempty
  have notFull := proper.notFull
  have below :=
    Nat.mod_lt (index + pattern.rotation)
      (Nat.lt_of_le_of_lt (Nat.zero_le _) notFull)
  simp only [Covers, BitPattern.complement, Nat.add_mod_mod]
  rw [← Nat.add_assoc, ← Nat.mod_add_mod]
  by_cases covered :
      (index + pattern.rotation) % pattern.period < pattern.ones
  · rw [Nat.mod_eq_of_lt (by omega)]
    omega
  · rw [Nat.mod_eq_sub_mod (by omega), Nat.mod_eq_of_lt (by omega)]
    omega

/-- The value of the complement is the complement of the value. -/
theorem Proper.value_complement
    {width : Nat}
    (divides : pattern.period ∣ width) :
    pattern.complement.value width =
      2 ^ width - 1 - pattern.value width := by
  have small := proper.value_lt divides
  refine Nat.eq_of_testBit_eq fun index => ?_
  rw [Nat.sub_sub, Nat.add_comm 1, Nat.testBit_two_pow_sub_succ small,
    Bool.eq_iff_iff, proper.complement.testBit_value_iff divides,
    proper.covers_complement, Bool.and_eq_true, decide_eq_true_eq]
  refine and_congr_right fun inside => ?_
  rw [testBit_value proper divides inside]
  simp

end Complement

/-! ## Patterns that are not repeated -/

/-- The places of a register, moved by the rotation, leave it once. -/
theorem Proper.covers_iff
    {pattern : BitPattern}
    (proper : pattern.Proper)
    {index : Nat}
    (inside : index < pattern.period) :
    pattern.Covers index ↔
      index + pattern.rotation < pattern.ones ∨
        pattern.period ≤ index + pattern.rotation ∧
          index + pattern.rotation < pattern.period + pattern.ones := by
  have notFull := proper.notFull
  have rotates := proper.rotates
  rw [Covers]
  by_cases stays : index + pattern.rotation < pattern.period
  · rw [Nat.mod_eq_of_lt stays]
    omega
  · rw [Nat.mod_eq_sub_mod (by omega), Nat.mod_eq_of_lt (by omega)]
    omega

/-- The lowest place of the run of ones. -/
def start (pattern : BitPattern) : Nat :=
  (pattern.period - pattern.rotation) % pattern.period

theorem Proper.start_eq
    {pattern : BitPattern}
    (proper : pattern.Proper) :
    pattern.start =
      if pattern.rotation = 0 then 0
      else pattern.period - pattern.rotation := by
  have rotates := proper.rotates
  rw [start]
  split
  · next unmoved => rw [unmoved, Nat.sub_zero, Nat.mod_self]
  · exact Nat.mod_eq_of_lt (by omega)

theorem Proper.start_lt
    {pattern : BitPattern}
    (proper : pattern.Proper) :
    pattern.start < pattern.period :=
  Nat.mod_lt _ (Nat.lt_of_le_of_lt (Nat.zero_le _) proper.rotates)

theorem Proper.covers_start
    {pattern : BitPattern}
    (proper : pattern.Proper) :
    pattern.Covers pattern.start := by
  have nonempty := proper.nonempty
  have rotates := proper.rotates
  rw [proper.covers_iff proper.start_lt, proper.start_eq]
  split <;> omega

/-- The zeros start where the ones end. -/
theorem Proper.start_complement
    {pattern : BitPattern}
    (proper : pattern.Proper) :
    pattern.complement.start =
      if pattern.start + pattern.ones < pattern.period then
        pattern.start + pattern.ones
      else
        pattern.start + pattern.ones - pattern.period := by
  have nonempty := proper.nonempty
  have notFull := proper.notFull
  have rotates := proper.rotates
  have rotation_eq :
      pattern.complement.rotation =
        if pattern.rotation < pattern.ones then
          pattern.rotation + (pattern.period - pattern.ones)
        else
          pattern.rotation - pattern.ones := by
    simp only [BitPattern.complement]
    split
    · exact Nat.mod_eq_of_lt (by omega)
    · rw [Nat.mod_eq_sub_mod (by omega), Nat.mod_eq_of_lt (by omega)]
      omega
  have period_eq : pattern.complement.period = pattern.period :=
    rfl
  rw [proper.start_eq, proper.complement.start_eq, rotation_eq, period_eq]
  split_ifs <;> omega

section Full

variable
  {pattern : BitPattern}
  (proper : pattern.Proper)
  {count : Nat}
  (full : pattern.period = 16 * count)
  (several : 2 ≤ count)
include proper full several

/-- The run lies in sixteen bits if it ends before the next multiple. -/
theorem fitsHalfword_value_iff (low : Nat) :
    FitsHalfword low pattern.period (pattern.value pattern.period) ↔
      low ≤ pattern.start % 16 ∧ pattern.start % 16 + pattern.ones ≤ 16 := by
  have nonempty := proper.nonempty
  have notFull := proper.notFull
  have rotates := proper.rotates
  have start_eq := proper.start_eq
  rw [fitsHalfword_iff_testBit]
  simp only [proper.testBit_value_iff (Nat.dvd_refl _)]
  constructor
  · rintro ⟨place, inside, within⟩
    have first :=
      within pattern.start ⟨proper.start_lt, proper.covers_start⟩
    refine ⟨by omega, ?_⟩
    by_contra beyond
    -- The run goes on at the next multiple of sixteen, or at place zero.
    obtain ⟨next, isNext⟩ :
        ∃ next, next =
          if 16 * place + 16 < pattern.period then 16 * place + 16 else 0 :=
      ⟨_, rfl⟩
    have nextInside : next < pattern.period := by
      split at isNext <;> omega
    have second :=
      within next
        ⟨nextInside, (proper.covers_iff nextInside).mpr (by
          split at start_eq <;> split at isNext <;> omega)⟩
    split at isNext <;> omega
  · rintro ⟨lowest, ends⟩
    refine ⟨pattern.start / 16, ?_, fun index isOne => ?_⟩
    · have := proper.start_lt
      omega
    · have covered := (proper.covers_iff isOne.1).mp isOne.2
      split at start_eq <;> omega

/-- The two tests find the values with sixteen bits, and complements. -/
theorem fitsWideMove_iff :
    pattern.fitsWideMove ↔
      FitsHalfword 0 pattern.period (pattern.value pattern.period) ∨
        FitsHalfword 2 pattern.period
          (pattern.complement.value pattern.period) := by
  have nonempty := proper.nonempty
  have notFull := proper.notFull
  have rotates := proper.rotates
  have start_eq := proper.start_eq
  have zeros_start := proper.start_complement
  have zeros_fit :=
    fitsHalfword_value_iff proper.complement
      (show pattern.complement.period = 16 * count from full) several 2
  have zeros_count :
      pattern.complement.ones = pattern.period - pattern.ones :=
    rfl
  rw [zeros_count, zeros_start] at zeros_fit
  rw [fitsHalfword_value_iff proper full several,
    show pattern.period = pattern.complement.period from rfl, zeros_fit,
    fitsWideMove]
  split
  · next few =>
    rw [decide_eq_true_eq]
    split_ifs at start_eq ⊢ <;> omega
  · next many =>
    rw [Bool.and_eq_true, decide_eq_true_eq, decide_eq_true_eq]
    split_ifs at start_eq ⊢ <;> omega

end Full

/-! ## Recovering a pattern from its value -/

/-- Places that are periods apart are covered alike. -/
theorem covers_add
    {pattern : BitPattern}
    {distance : Nat}
    (repeats : pattern.period ∣ distance)
    (index : Nat) :
    pattern.Covers (index + distance) ↔ pattern.Covers index := by
  rcases repeats with ⟨factor, rfl⟩
  rw [Covers, Nat.add_right_comm, Nat.add_mul_mod_self_left]
  rfl

/-- A pattern that is not repeated has as many ones as its run. -/
theorem Proper.countP_testBit
    {pattern : BitPattern}
    (proper : pattern.Proper) :
    (List.range pattern.period).countP
        (pattern.value pattern.period).testBit =
      pattern.ones := by
  have notFull := proper.notFull
  have rotates := proper.rotates
  have ofPlaces :
      (List.range pattern.period).countP
          (pattern.value pattern.period).testBit =
        Nat.count pattern.Covers pattern.period := by
    refine List.countP_congr fun index inside => ?_
    rw [proper.testBit_value_iff (Nat.dvd_refl _), decide_eq_true_eq]
    exact and_iff_right (List.mem_range.mp inside)
  have periodic : Function.Periodic pattern.Covers pattern.period :=
    fun index => propext (covers_add (Nat.dvd_refl _) index)
  -- One period is counted from where the run starts.
  have isRun :
      (Finset.Ico (pattern.period - pattern.rotation)
            (pattern.period - pattern.rotation + pattern.period)).filter
          pattern.Covers =
        Finset.Ico (pattern.period - pattern.rotation)
          (pattern.period - pattern.rotation + pattern.ones) := by
    ext index
    simp only [Finset.mem_filter, Finset.mem_Ico, Covers]
    constructor
    · rintro ⟨⟨low, high⟩, covered⟩
      rw [Nat.mod_eq_sub_mod (by omega), Nat.mod_eq_of_lt (by omega)]
        at covered
      omega
    · rintro ⟨low, high⟩
      rw [Nat.mod_eq_sub_mod (by omega), Nat.mod_eq_of_lt (by omega)]
      omega
  rw [ofPlaces, ← Nat.filter_Ico_card_eq_of_periodic _ _ _ periodic, isRun,
    Nat.card_Ico, Nat.add_sub_cancel_left]

/-- A pattern that is not repeated is its own element. -/
theorem value_period
    {pattern : BitPattern}
    (positive : 0 < pattern.period) :
    pattern.value pattern.period = pattern.element := by
  rw [value, Nat.div_self positive, repeated, repeated, Nat.mul_zero,
    Nat.add_zero]

section Halves

variable
  {pattern : BitPattern}
  (proper : pattern.Proper)
  {half : Nat}
  (divides : pattern.period ∣ 2 * half)
include proper divides

/-- The halves of a register are equal if places half a register apart are. -/
theorem Proper.halves_eq_iff :
    pattern.value (2 * half) / 2 ^ half =
        pattern.value (2 * half) % 2 ^ half ↔
      ∀ index < half,
        (pattern.Covers (index + half) ↔ pattern.Covers index) := by
  have high (index : Nat) :
      (pattern.value (2 * half) / 2 ^ half).testBit index ↔
        index < half ∧ pattern.Covers (index + half) := by
    rw [Nat.testBit_div_two_pow, proper.testBit_value_iff divides]
    refine and_congr_left fun _ => ?_
    omega
  have low (index : Nat) :
      (pattern.value (2 * half) % 2 ^ half).testBit index ↔
        index < half ∧ pattern.Covers index := by
    rw [Nat.testBit_mod_two_pow, Bool.and_eq_true, decide_eq_true_eq,
      proper.testBit_value_iff divides]
    refine and_congr_right fun inside => and_iff_right ?_
    omega
  constructor
  · intro same index inside
    have sameBit := (high index).symm.trans (same ▸ low index)
    simpa [inside] using sameBit
  · intro same
    refine Nat.eq_of_testBit_eq fun index => ?_
    rw [Bool.eq_iff_iff, high, low]
    exact and_congr_right fun inside => same index inside

end Halves

section Recovery

variable
  {pattern : BitPattern}
  (proper : pattern.Proper)
  {half : Nat}
include proper

/-- A pattern with a shorter period is not recovered. -/
theorem ofValue?_of_dvd (repeats : pattern.period ∣ half) :
    ofValue? (2 * half) (pattern.value (2 * half)) = none := by
  have divides := Dvd.dvd.mul_left repeats 2
  have equal :=
    (proper.halves_eq_iff divides).mpr fun index _ =>
      covers_add repeats index
  have small := proper.value_lt divides
  simp only [ofValue?, Nat.mod_eq_of_lt small,
    Nat.mul_div_cancel_left half (by decide : 0 < 2), equal, or_true,
    ↓reduceIte]

/-- The halves of a register differ if the pattern is not repeated. -/
theorem Proper.halves_ne (full : pattern.period = 2 * half) :
    pattern.value (2 * half) / 2 ^ half ≠
      pattern.value (2 * half) % 2 ^ half := by
  have nonempty := proper.nonempty
  have notFull := proper.notFull
  have rotates := proper.rotates
  have start_eq := proper.start_eq
  rw [Ne, proper.halves_eq_iff full.dvd]
  intro same
  have both (index : Nat) (inside : index < half) :
      index + half + pattern.rotation < pattern.ones ∨
          pattern.period ≤ index + half + pattern.rotation ∧
            index + half + pattern.rotation <
              pattern.period + pattern.ones ↔
        index + pattern.rotation < pattern.ones ∨
          pattern.period ≤ index + pattern.rotation ∧
            index + pattern.rotation < pattern.period + pattern.ones := by
    rw [← proper.covers_iff (by omega), ← proper.covers_iff (by omega)]
    exact same index inside
  -- The first place of the run and the one before it, within their halves.
  have first :=
    both
      (if pattern.start < half then pattern.start else pattern.start - half)
      (by split_ifs at start_eq ⊢ <;> omega)
  have before :=
    both
      (if pattern.start = 0 then half - 1
      else if pattern.start ≤ half then pattern.start - 1
      else pattern.start - 1 - half)
      (by split_ifs at start_eq ⊢ <;> omega)
  split_ifs at start_eq first before <;> omega

/-- A pattern that is not repeated is recovered from its value. -/
theorem ofValue?_value (full : pattern.period = 2 * half) :
    ofValue? (2 * half) (pattern.value (2 * half)) = some pattern := by
  have nonempty := proper.nonempty
  have notFull := proper.notFull
  have rotates := proper.rotates
  have positive : 0 < 2 * half := by omega
  have small := proper.value_lt full.dvd
  have ones := proper.countP_testBit
  have element_eq := value_period (full ▸ positive)
  rw [full] at ones element_eq
  have differ := proper.halves_ne full
  simp only [ofValue?, Nat.mod_eq_of_lt small,
    Nat.mul_div_cancel_left half (by decide : 0 < 2), ones]
  rw [if_neg (by omega)]
  obtain ⟨found, isFound⟩ :
      ∃ found,
        ((List.range (2 * half)).map
            (BitPattern.mk (2 * half) pattern.ones)).find?
            (fun other => other.element = pattern.value (2 * half)) =
          some found := by
    rw [← Option.isSome_iff_exists, List.find?_isSome]
    refine ⟨pattern, ?_, by simp [element_eq]⟩
    rw [List.mem_map]
    refine ⟨pattern.rotation, List.mem_range.mpr (by omega), ?_⟩
    rw [← full]
  rw [isFound, Option.some.injEq]
  rcases List.mem_map.mp (List.mem_of_find?_eq_some isFound) with
    ⟨rotation, inside, rfl⟩
  have sameElement := List.find?_some isFound
  rw [decide_eq_true_eq] at sameElement
  have otherProper :
      (BitPattern.mk (2 * half) pattern.ones rotation).Proper :=
    ⟨nonempty, full ▸ notFull, List.mem_range.mp inside⟩
  refine
    eq_of_value_eq otherProper proper positive (Nat.dvd_refl _) full.dvd ?_
  rw [← sameElement]
  exact @value_period ⟨2 * half, pattern.ones, rotation⟩ positive

/-- A pattern with a shorter period has ones in both halves. -/
theorem not_fitsHalfword_value
    (repeats : pattern.period ∣ half)
    (wide : 16 ≤ half)
    (low : Nat) :
    ¬FitsHalfword low (2 * half) (pattern.value (2 * half)) := by
  have divides := Dvd.dvd.mul_left repeats 2
  have shorter := Nat.le_of_dvd (by omega) repeats
  have start_lt := proper.start_lt
  rw [fitsHalfword_iff_testBit]
  simp only [proper.testBit_value_iff divides]
  rintro ⟨place, -, within⟩
  have lower := within pattern.start ⟨by omega, proper.covers_start⟩
  have higher :=
    within (pattern.start + half)
      ⟨by omega, (covers_add repeats _).mpr proper.covers_start⟩
  omega

/--
The test for wide moves, of the value of a pattern: whether its ones lie in
sixteen bits, or its zeros in the upper fourteen of sixteen bits.
-/
theorem isWideMove_value_iff
    (positive : 0 < half)
    (aligned : 16 ∣ half)
    (divides : pattern.period = 2 * half ∨ pattern.period ∣ half) :
    isWideMove (2 * half) (pattern.value (2 * half)) ↔
      FitsHalfword 0 (2 * half) (pattern.value (2 * half)) ∨
        FitsHalfword 2 (2 * half)
          (2 ^ (2 * half) - 1 - pattern.value (2 * half)) := by
  rcases aligned with ⟨count, rfl⟩
  rw [isWideMove]
  rcases divides with full | repeats
  · have shape : pattern.period = 16 * (2 * count) := by omega
    have fits := fitsWideMove_iff proper shape (by omega)
    rw [proper.value_complement (Nat.dvd_refl _), full] at fits
    rw [ofValue?_value proper full]
    exact fits
  · rw [ofValue?_of_dvd proper repeats,
      ← proper.value_complement (Dvd.dvd.mul_left repeats 2)]
    simp [not_fitsHalfword_value proper repeats (by omega),
      not_fitsHalfword_value proper.complement repeats (by omega)]

end Recovery

/-- An encoded pattern fills the register once, or a part of its half. -/
theorem period_eq_or_dvd
    {n immr imms : Nat}
    {pattern : BitPattern}
    (encoded : ofFields? n immr imms = some pattern)
    {logarithm : Nat}
    (fits : pattern.period ≤ 2 * 2 ^ logarithm) :
    pattern.period = 2 * 2 ^ logarithm ∨ pattern.period ∣ 2 ^ logarithm := by
  rcases eq_of_ofFields? encoded with ⟨-, -, rfl⟩
  rw [← Nat.pow_succ'] at fits ⊢
  rcases Nat.le_succ_iff.mp
      ((Nat.pow_le_pow_iff_right (by decide)).mp fits) with
    shorter | same
  · exact .inr (Nat.pow_dvd_pow 2 shorter)
  · exact .inl (congrArg (2 ^ ·) same)

end BitPattern

end MachineCode.Arm64
