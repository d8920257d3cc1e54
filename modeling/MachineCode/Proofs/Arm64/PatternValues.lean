import MachineCode.Proofs.Arm64.WideConstant

/-!
# The values of logical immediates

A register is filled with copies of one element, a run of ones that is rotated
within the element (`rotatedRun`). This module shows that the fields of an
instruction encode exactly the values of this kind, for every length of
element that is a power of two, and that a value is encoded in one way but for
the bits of the rotation that reach beyond the element
(`logicalImmediate?_values`).

The value of a pattern is compared with the register place by place
(`Proper.value_eq_replicate`). That a value has one pattern is known
(`BitPattern.eq_of_value_eq`); what is left is to find fields for each pattern
(`exists_fields`).
-/

namespace MachineCode.Arm64

/-- The fields of an instruction that encode a pattern. -/
structure PatternFields where
  n : Fin 2
  immr : Fin 64
  imms : Fin 64
deriving DecidableEq, Repr

/-- The value that the fields encode in a register of `width` bits. -/
def PatternFields.value? (fields : PatternFields) (width : Nat) :
    Option Nat :=
  logicalImmediate? fields.n fields.immr fields.imms width

/-- The lengths of the elements that a register may be filled with. -/
def elementLengths : List Nat :=
  [2, 4, 8, 16, 32, 64]

/-- Consecutive ones, rotated to the right within an element. -/
def rotatedRun (length ones rotation : Nat) : BitVec length :=
  (BitVec.ofNat length (2 ^ ones - 1)).rotateRight rotation

/--
Whether a value fills `width` bits with copies of an element that is a rotated
run of ones, but not all ones.
-/
def RepeatsRun (width length value : Nat) : Prop :=
  ∃ ones rotation,
    0 < ones ∧ ones < length ∧
      value =
        ((rotatedRun length ones rotation).replicate
          (width / length)).toNat

theorem mem_elementLengths_iff {length : Nat} :
    length ∈ elementLengths ↔
      ∃ exponent, 0 < exponent ∧ exponent ≤ 6 ∧ length = 2 ^ exponent := by
  constructor
  · intro member
    simp only [elementLengths, List.mem_cons, List.not_mem_nil, or_false]
      at member
    rcases member with rfl | rfl | rfl | rfl | rfl | rfl
    · exact ⟨1, by decide⟩
    · exact ⟨2, by decide⟩
    · exact ⟨3, by decide⟩
    · exact ⟨4, by decide⟩
    · exact ⟨5, by decide⟩
    · exact ⟨6, by decide⟩
  · rintro ⟨exponent, positive, small, rfl⟩
    have each :
        ∀ exponent ≤ 6, 0 < exponent → 2 ^ exponent ∈ elementLengths := by
      decide
    exact each exponent small positive

namespace BitPattern

/-! ## Patterns as rotated runs -/

section Value

variable
  {pattern : BitPattern}
  (proper : pattern.Proper)
include proper

/-- The ones of an element are the places that the pattern covers. -/
theorem Proper.getLsbD_rotatedRun
    {place : Nat}
    (inside : place < pattern.period) :
    (rotatedRun pattern.period pattern.ones pattern.rotation).getLsbD
        place =
      decide (pattern.Covers place) := by
  have notFull := proper.notFull
  have rotates := proper.rotates
  rw [rotatedRun, BitVec.getLsbD_rotateRight, Nat.mod_eq_of_lt rotates,
    BitVec.getLsbD_ofNat, BitVec.getLsbD_ofNat, Nat.testBit_two_pow_sub_one,
    Nat.testBit_two_pow_sub_one, Bool.eq_iff_iff, decide_eq_true_eq,
    proper.covers_iff inside]
  by_cases stays : place < pattern.period - pattern.rotation
  · simp only [stays, decide_true, cond_true, Bool.and_eq_true,
      decide_eq_true_eq]
    omega
  · simp only [stays, decide_false, cond_false, Bool.and_eq_true,
      decide_eq_true_eq]
    omega

variable
  {width : Nat}
  (divides : pattern.period ∣ width)
include divides

/-- The value of a pattern consists of copies of a rotated run. -/
theorem Proper.value_eq_replicate :
    pattern.value width =
      ((rotatedRun pattern.period pattern.ones pattern.rotation).replicate
        (width / pattern.period)).toNat := by
  have positive : 0 < pattern.period :=
    Nat.lt_of_le_of_lt (Nat.zero_le _) proper.rotates
  apply Nat.eq_of_testBit_eq
  intro place
  rw [BitVec.testBit_toNat, BitVec.getLsbD_replicate,
    Nat.mul_div_cancel' divides,
    proper.getLsbD_rotatedRun (Nat.mod_lt _ positive), Bool.eq_iff_iff,
    proper.testBit_value_iff divides, Bool.and_eq_true, decide_eq_true_eq,
    decide_eq_true_eq, covers_mod (Nat.dvd_refl _)]

theorem Proper.value_ne_zero (positive : 0 < width) :
    pattern.value width ≠ 0 := by
  intro zero
  have first :=
    (proper.testBit_value_iff divides pattern.start).mpr
      ⟨Nat.lt_of_lt_of_le proper.start_lt (Nat.le_of_dvd positive divides),
        proper.covers_start⟩
  rw [zero, Nat.zero_testBit] at first
  cases first

/-- A pattern leaves zeros, which its complement covers. -/
theorem Proper.value_ne_ones (positive : 0 < width) :
    pattern.value width ≠ 2 ^ width - 1 := by
  intro full
  have zeros := proper.complement.value_ne_zero divides positive
  rw [proper.value_complement divides, full, Nat.sub_self] at zeros
  exact zeros rfl

end Value

/-- A value that repeats a run is that of a pattern. -/
theorem exists_of_repeatsRun
    {width length value : Nat}
    (divides : length ∣ width)
    (repeats : RepeatsRun width length value) :
    ∃ pattern : BitPattern,
      pattern.Proper ∧ pattern.period = length ∧
        pattern.value width = value := by
  rcases repeats with ⟨ones, rotation, nonempty, notFull, rfl⟩
  have proper : (BitPattern.mk length ones (rotation % length)).Proper :=
    ⟨nonempty, notFull,
      Nat.mod_lt _ (Nat.lt_of_le_of_lt (Nat.zero_le _) notFull)⟩
  refine ⟨_, proper, rfl, ?_⟩
  rw [proper.value_eq_replicate divides, rotatedRun,
    BitVec.rotateRight_mod_eq_rotateRight]
  rfl

/-! ## The fields of a pattern -/

/--
Fields encode a pattern if, joined, they are the period and the number of
zeros in it.
-/
theorem ofFields?_of_join
    {pattern : BitPattern}
    (proper : pattern.Proper)
    {exponent : Nat}
    (period : pattern.period = 2 ^ exponent)
    (divides : pattern.period ∣ 64)
    {n immr imms : Nat}
    (small : imms < 64)
    (joined :
      64 * n + (63 - imms) =
        pattern.period + (pattern.period - pattern.ones))
    (rotation : immr % pattern.period = pattern.rotation) :
    ofFields? n immr imms = some pattern := by
  have nonempty := proper.nonempty
  have notFull := proper.notFull
  have logarithm : Nat.log2 (64 * n + (63 - imms)) = exponent := by
    rw [joined, Nat.log2_eq_iff (by omega), Nat.pow_succ, ← period]
    omega
  have nonzero : exponent ≠ 0 := by
    rintro rfl
    rw [Nat.pow_zero] at period
    omega
  have ones : imms % pattern.period = pattern.ones - 1 := by
    rcases Nat.dvd_mul_right_of_dvd divides (n + 1) with ⟨factor, multiple⟩
    have turned :
        imms + pattern.period * 2 =
          pattern.period * factor + (pattern.ones - 1) := by
      omega
    rw [← Nat.add_mul_mod_self_left imms pattern.period 2, turned,
      Nat.mul_add_mod, Nat.mod_eq_of_lt (by omega)]
  rw [ofFields?, logarithm, ← period, ones, rotation,
    if_neg (by omega), Nat.sub_add_cancel nonempty]

/--
Each pattern has fields. The highest zero of the first field and the last one
tells the period.
-/
theorem exists_fields
    {pattern : BitPattern}
    (proper : pattern.Proper)
    (listed : pattern.period ∈ elementLengths) :
    ∃ fields : PatternFields,
      ofFields? fields.n fields.immr fields.imms = some pattern := by
  rcases mem_elementLengths_iff.mp listed with
    ⟨exponent, -, small, period⟩
  have divides : pattern.period ∣ 64 := period ▸ Nat.pow_dvd_pow 2 small
  have nonempty := proper.nonempty
  have notFull := proper.notFull
  have rotates := proper.rotates
  obtain longest | shorter :
      pattern.period = 64 ∨ 2 * pattern.period ≤ 64 := by
    simp only [elementLengths, List.mem_cons, List.not_mem_nil, or_false]
      at listed
    omega
  · refine
      ⟨⟨1, ⟨pattern.rotation, by omega⟩, ⟨pattern.ones - 1, by omega⟩⟩, ?_⟩
    apply ofFields?_of_join proper period divides
    · show pattern.ones - 1 < 64
      omega
    · show 64 * 1 + (63 - (pattern.ones - 1)) = _
      omega
    · exact Nat.mod_eq_of_lt rotates
  · refine
      ⟨⟨0, ⟨pattern.rotation, by omega⟩,
        ⟨63 + pattern.ones - 2 * pattern.period, by omega⟩⟩, ?_⟩
    apply ofFields?_of_join proper period divides
    · show 63 + pattern.ones - 2 * pattern.period < 64
      omega
    · show 64 * 0 + (63 - (63 + pattern.ones - 2 * pattern.period)) = _
      omega
    · exact Nat.mod_eq_of_lt rotates

theorem period_mem_elementLengths
    {fields : PatternFields}
    {pattern : BitPattern}
    (encoded :
      ofFields? fields.n fields.immr fields.imms = some pattern) :
    pattern.period ∈ elementLengths := by
  rcases eq_of_ofFields? encoded with ⟨nonzero, -, rfl⟩
  rw [mem_elementLengths_iff]
  refine ⟨_, Nat.pos_of_ne_zero nonzero, Nat.le_of_lt_succ ?_, rfl⟩
  have joined :=
    join_eq_of_exponent fields.n.isLt fields.imms.isLt nonzero
  have bit := fields.n.isLt
  rw [← Nat.pow_lt_pow_iff_right (by decide : 1 < 2)]
  omega

end BitPattern

/-! ## The values that fields encode -/

/-- Fields encode a value by way of a pattern that fits the register. -/
theorem PatternFields.value?_eq_some_iff
    {fields : PatternFields}
    {width value : Nat} :
    fields.value? width = some value ↔
      ∃ pattern,
        BitPattern.ofFields? fields.n fields.immr fields.imms =
            some pattern ∧
          pattern.period ≤ width ∧ pattern.value width = value := by
  rw [value?, logicalImmediate?]
  cases BitPattern.ofFields? fields.n fields.immr fields.imms with
  | none => simp
  | some pattern => simp

section Register

variable
  {width : Nat}
  (isWidth : width = 32 ∨ width = 64)
include isWidth

theorem dvd_of_mem_elementLengths
    {length : Nat}
    (listed : length ∈ elementLengths)
    (fits : length ≤ width) :
    length ∣ width := by
  simp only [elementLengths, List.mem_cons, List.not_mem_nil, or_false]
    at listed
  rcases isWidth with rfl | rfl
  all_goals rcases listed with rfl | rfl | rfl | rfl | rfl | rfl <;> omega

/-- What is encoded is the value of a proper pattern. -/
theorem PatternFields.exists_pattern
    {fields : PatternFields}
    {value : Nat}
    (encodes : fields.value? width = some value) :
    ∃ pattern,
      BitPattern.ofFields? fields.n fields.immr fields.imms =
          some pattern ∧
        pattern.Proper ∧ pattern.period ∣ width ∧
        pattern.value width = value := by
  rcases value?_eq_some_iff.mp encodes with ⟨pattern, encoded, fits, same⟩
  exact
    ⟨pattern, encoded, BitPattern.proper_of_ofFields? encoded,
      dvd_of_mem_elementLengths isWidth
        (BitPattern.period_mem_elementLengths encoded) fits,
      same⟩

/-- The values that are encoded are those that repeat a rotated run. -/
theorem exists_value?_iff_repeatsRun (value : Nat) :
    (∃ fields : PatternFields, fields.value? width = some value) ↔
      ∃ length ∈ elementLengths,
        length ≤ width ∧ RepeatsRun width length value := by
  constructor
  · rintro ⟨fields, encodes⟩
    rcases PatternFields.value?_eq_some_iff.mp encodes with
      ⟨pattern, encoded, fits, rfl⟩
    have proper := BitPattern.proper_of_ofFields? encoded
    have listed := BitPattern.period_mem_elementLengths encoded
    have divides := dvd_of_mem_elementLengths isWidth listed fits
    exact
      ⟨pattern.period, listed, fits, pattern.ones, pattern.rotation,
        proper.nonempty, proper.notFull, proper.value_eq_replicate divides⟩
  · rintro ⟨length, listed, fits, repeats⟩
    have divides := dvd_of_mem_elementLengths isWidth listed fits
    rcases BitPattern.exists_of_repeatsRun divides repeats with
      ⟨pattern, proper, rfl, same⟩
    rcases BitPattern.exists_fields proper listed with ⟨fields, encoded⟩
    exact
      ⟨fields,
        PatternFields.value?_eq_some_iff.mpr ⟨pattern, encoded, fits, same⟩⟩

/-- Fields of one value differ in the rotation, by whole elements. -/
theorem PatternFields.eq_of_value?
    {fields other : PatternFields}
    {value : Nat}
    (encodes : fields.value? width = some value)
    (otherEncodes : other.value? width = some value) :
    fields.n = other.n ∧ fields.imms = other.imms ∧
      ∀ length ∈ elementLengths, length ≤ width →
        RepeatsRun width length value →
          fields.immr.val % length = other.immr.val % length := by
  have positive : 0 < width := by omega
  rcases exists_pattern isWidth encodes with
    ⟨pattern, encoded, proper, divides, isValue⟩
  rcases exists_pattern isWidth otherEncodes with
    ⟨otherPattern, otherEncoded, otherProper, otherDivides, isOtherValue⟩
  obtain rfl : pattern = otherPattern :=
    BitPattern.eq_of_value_eq proper otherProper positive divides
      otherDivides (isValue.trans isOtherValue.symm)
  rcases BitPattern.fields_eq fields.n.isLt other.n.isLt fields.imms.isLt
      other.imms.isLt encoded otherEncoded with
    ⟨sameBit, sameOnes, sameRotation⟩
  refine ⟨Fin.ext sameBit, Fin.ext sameOnes, ?_⟩
  intro length listed fits repeats
  rcases BitPattern.exists_of_repeatsRun
      (dvd_of_mem_elementLengths isWidth listed fits) repeats with
    ⟨run, runProper, rfl, isRunValue⟩
  have runDivides := dvd_of_mem_elementLengths isWidth listed fits
  obtain rfl : run = pattern :=
    BitPattern.eq_of_value_eq runProper proper positive runDivides divides
      (isRunValue.trans isValue.symm)
  rcases BitPattern.eq_of_ofFields? encoded with ⟨-, -, rfl⟩
  exact sameRotation

/--
The fields of a logical immediate encode exactly the values that repeat a
rotated run of ones, each in one way but for rotations by whole elements; so
neither zero nor all ones is encoded.
-/
theorem logicalImmediate?_values (value : Nat) :
    ((∃ fields : PatternFields, fields.value? width = some value) ↔
        ∃ length ∈ elementLengths,
          length ≤ width ∧ RepeatsRun width length value) ∧
      (∀ fields other : PatternFields,
        fields.value? width = some value →
          other.value? width = some value →
            fields.n = other.n ∧ fields.imms = other.imms ∧
              ∀ length ∈ elementLengths, length ≤ width →
                RepeatsRun width length value →
                  fields.immr.val % length = other.immr.val % length) ∧
      ∀ fields : PatternFields,
        fields.value? width ≠ some 0 ∧
          fields.value? width ≠ some (2 ^ width - 1) := by
  have positive : 0 < width := by omega
  refine
    ⟨exists_value?_iff_repeatsRun isWidth value,
      fun _ _ => PatternFields.eq_of_value? isWidth, ?_⟩
  intro fields
  constructor
  · intro zero
    rcases PatternFields.exists_pattern isWidth zero with
      ⟨pattern, -, proper, divides, isZero⟩
    exact proper.value_ne_zero divides positive isZero
  · intro ones
    rcases PatternFields.exists_pattern isWidth ones with
      ⟨pattern, -, proper, divides, isOnes⟩
    exact proper.value_ne_ones divides positive isOnes

end Register

/-- The fields of the ones at even places. -/
def evenPlaceFields : PatternFields :=
  ⟨0, 0, 0b111100⟩

/-- The same fields with a rotation by one element. -/
def rotatedEvenPlaceFields : PatternFields :=
  ⟨0, 2, 0b111100⟩

/-- An element of two bits, of which the rotation tells only the parity. -/
theorem logicalImmediate?_values_evenPlaces :
    (32 = 32 ∨ 32 = 64) ∧
      evenPlaceFields.value? 32 = some 0x55555555 ∧
      rotatedEvenPlaceFields.value? 32 = some 0x55555555 ∧
      2 ∈ elementLengths ∧ 2 ≤ 32 ∧ RepeatsRun 32 2 0x55555555 ∧
      evenPlaceFields.immr.val % 2 = rotatedEvenPlaceFields.immr.val % 2 ∧
      evenPlaceFields.value? 32 ≠ some (2 ^ 32 - 1) := by
  have isWidth : 32 = 32 ∨ 32 = 64 := .inl rfl
  have encodes : evenPlaceFields.value? 32 = some 0x55555555 := by decide
  have rotated : rotatedEvenPlaceFields.value? 32 = some 0x55555555 := by
    decide
  have repeats : RepeatsRun 32 2 0x55555555 :=
    ⟨1, 0, by decide, by decide, by decide⟩
  rcases logicalImmediate?_values isWidth 0x55555555 with
    ⟨-, unique, never⟩
  have same :=
    (unique _ _ encodes rotated).2.2 2 (by decide) (by decide) repeats
  exact
    ⟨isWidth, encodes, rotated, by decide, by decide, repeats, same,
      (never evenPlaceFields).2⟩

end MachineCode.Arm64
