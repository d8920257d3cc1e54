import MachineCode.Proofs.RiscV.Manual

/-!
# Words of the six formats

A word of a format is made of its own fields (`rWord_of_fields` and the like),
and the fields of a word are what the word was made from. The immediates that
the operand formats gather are those of the manual's formats.
-/

namespace MachineCode.RiscV

/-- A word of 32 bits is the run of its own fields. -/
theorem join_cut_word
    {value : Nat}
    (small : value < 2 ^ 32)
    {lengths : List Nat}
    (whole : lengths.sum = 32) :
    join (cut value 0 lengths) = value := by
  rw [join_cut, whole, bitField_zero_of_lt small]

section OfFields

variable {value : Nat} (small : value < 2 ^ 32)
include small

theorem rWord_of_fields :
    rWord (bitField value 0 7) (bitField value 7 5) (bitField value 12 3)
        (bitField value 15 5) (bitField value 20 5) (bitField value 25 7) =
      value :=
  @join_cut_word value small [7, 5, 3, 5, 5, 7] rfl

theorem iWord_of_fields :
    iWord (bitField value 0 7) (bitField value 7 5) (bitField value 12 3)
        (bitField value 15 5) (bitField value 20 12) =
      value :=
  @join_cut_word value small [7, 5, 3, 5, 12] rfl

theorem shiftWord_of_fields {bits : Nat} (narrow : bits ≤ 12) :
    shiftWord bits (bitField value 0 7) (bitField value 7 5)
        (bitField value 12 3) (bitField value 15 5) (bitField value 20 bits)
        (bitField value (20 + bits) (12 - bits)) =
      value :=
  @join_cut_word value small [7, 5, 3, 5, bits, 12 - bits]
    (by simp only [List.sum_cons, List.sum_nil]; omega)

theorem sWord_of_fields :
    sWord (bitField value 0 7) (bitField value 12 3) (bitField value 15 5)
        (bitField value 20 5) (gather value Immediate.store) =
      value := by
  have piece := fun {member} =>
    @bitField_gather value 0 Immediate.store member (by decide) (by decide)
  have low := @piece ⟨7, 5, 0⟩ (by decide)
  have high := @piece ⟨25, 7, 5⟩ (by decide)
  dsimp only at low high
  rw [sWord, low, high]
  exact @join_cut_word value small [7, 5, 3, 5, 5, 7] rfl

theorem bWord_of_fields :
    bWord (bitField value 0 7) (bitField value 12 3) (bitField value 15 5)
        (bitField value 20 5) (gather value Immediate.branch) =
      value := by
  have piece := fun {member} =>
    @bitField_gather value 1 Immediate.branch member (by decide) (by decide)
  have low := @piece ⟨8, 4, 1⟩ (by decide)
  have high := @piece ⟨25, 6, 5⟩ (by decide)
  have eleventh := @piece ⟨7, 1, 11⟩ (by decide)
  have sign := @piece ⟨31, 1, 12⟩ (by decide)
  dsimp only at low high eleventh sign
  rw [bWord, low, high, eleventh, sign]
  exact @join_cut_word value small [7, 1, 4, 3, 5, 5, 6, 1] rfl

theorem uWord_of_fields :
    uWord (bitField value 0 7) (bitField value 7 5) (bitField value 12 20) =
      value :=
  @join_cut_word value small [7, 5, 20] rfl

theorem jWord_of_fields :
    jWord (bitField value 0 7) (bitField value 7 5)
        (gather value Immediate.jump) =
      value := by
  have piece := fun {member} =>
    @bitField_gather value 1 Immediate.jump member (by decide) (by decide)
  have low := @piece ⟨21, 10, 1⟩ (by decide)
  have eleventh := @piece ⟨20, 1, 11⟩ (by decide)
  have middle := @piece ⟨12, 8, 12⟩ (by decide)
  have sign := @piece ⟨31, 1, 20⟩ (by decide)
  dsimp only at low eleventh middle sign
  rw [jWord, low, eleventh, middle, sign]
  exact @join_cut_word value small [7, 5, 8, 1, 10, 1] rfl

end OfFields

section FieldsOf

variable
  {major destination funct3 first second : Nat}
  (majorSmall : major < 2 ^ 7)
  (funct3Small : funct3 < 2 ^ 3)
include majorSmall

theorem uWord_fields
    {upper : Nat}
    (destinationSmall : destination < 32)
    (upperSmall : upper < 2 ^ 20) :
    bitField (uWord major destination upper) 0 7 = major ∧
      bitField (uWord major destination upper) 7 5 = destination ∧
      bitField (uWord major destination upper) 12 20 = upper := by
  have fields :=
    @cut_join [(7, major), (5, destination), (20, upper)] (by simp_all)
  simpa [cut, uWord] using fields

/-- The offset of a jump is gathered from where its fields were put. -/
theorem jWord_fields
    {offset : Nat}
    (destinationSmall : destination < 32)
    (even : 2 ∣ offset)
    (offsetSmall : offset < 2 ^ 21) :
    bitField (jWord major destination offset) 0 7 = major ∧
      bitField (jWord major destination offset) 7 5 = destination ∧
      gather (jWord major destination offset) Immediate.jump = offset := by
  have fields :=
    @cut_join
      [(7, major), (5, destination), (8, bitField offset 12 8),
        (1, bitField offset 11 1), (10, bitField offset 1 10),
        (1, bitField offset 20 1)]
      (by
        simp only [List.forall_mem_cons]
        exact ⟨majorSmall, destinationSmall, bitField_lt .., bitField_lt ..,
          bitField_lt .., bitField_lt .., by simp⟩)
  simp only [List.map_cons, List.map_nil, cut, List.cons.injEq,
    Prod.mk.injEq, true_and, and_true] at fields
  rcases fields with ⟨sameMajor, sameDestination, middle, eleventh, low, sign⟩
  refine ⟨sameMajor, sameDestination, ?_⟩
  refine gather_eq_of_fields (by decide) (by decide) even offsetSmall ?_
  simp only [Immediate.jump, List.forall_mem_cons]
  exact ⟨low, eleventh, middle, sign, by simp⟩

include funct3Small

theorem rWord_fields
    {funct7 : Nat}
    (destinationSmall : destination < 32)
    (firstSmall : first < 32)
    (secondSmall : second < 32)
    (funct7Small : funct7 < 2 ^ 7) :
    bitField (rWord major destination funct3 first second funct7) 0 7 =
        major ∧
      bitField (rWord major destination funct3 first second funct7) 7 5 =
        destination ∧
      bitField (rWord major destination funct3 first second funct7) 12 3 =
        funct3 ∧
      bitField (rWord major destination funct3 first second funct7) 15 5 =
        first ∧
      bitField (rWord major destination funct3 first second funct7) 20 5 =
        second ∧
      bitField (rWord major destination funct3 first second funct7) 25 7 =
        funct7 := by
  have fields :=
    @cut_join
      [(7, major), (5, destination), (3, funct3), (5, first), (5, second),
        (7, funct7)]
      (by simp_all)
  simpa [cut, rWord] using fields

theorem iWord_fields
    {constant : Nat}
    (destinationSmall : destination < 32)
    (firstSmall : first < 32)
    (constantSmall : constant < 2 ^ 12) :
    bitField (iWord major destination funct3 first constant) 0 7 = major ∧
      bitField (iWord major destination funct3 first constant) 7 5 =
        destination ∧
      bitField (iWord major destination funct3 first constant) 12 3 =
        funct3 ∧
      bitField (iWord major destination funct3 first constant) 15 5 = first ∧
      bitField (iWord major destination funct3 first constant) 20 12 =
        constant := by
  have fields :=
    @cut_join
      [(7, major), (5, destination), (3, funct3), (5, first), (12, constant)]
      (by simp_all)
  simpa [cut, iWord] using fields

theorem shiftWord_fields
    {bits amount selector : Nat}
    (destinationSmall : destination < 32)
    (firstSmall : first < 32)
    (amountSmall : amount < 2 ^ bits)
    (selectorSmall : selector < 2 ^ (12 - bits)) :
    bitField (shiftWord bits major destination funct3 first amount selector)
        0 7 = major ∧
      bitField (shiftWord bits major destination funct3 first amount selector)
        7 5 = destination ∧
      bitField (shiftWord bits major destination funct3 first amount selector)
        12 3 = funct3 ∧
      bitField (shiftWord bits major destination funct3 first amount selector)
        15 5 = first ∧
      bitField (shiftWord bits major destination funct3 first amount selector)
        20 bits = amount ∧
      bitField (shiftWord bits major destination funct3 first amount selector)
        (20 + bits) (12 - bits) = selector := by
  have fields :=
    @cut_join
      [(7, major), (5, destination), (3, funct3), (5, first), (bits, amount),
        (12 - bits, selector)]
      (by simp_all)
  simpa [cut, shiftWord] using fields

theorem sWord_fields
    {constant : Nat}
    (firstSmall : first < 32)
    (secondSmall : second < 32)
    (constantSmall : constant < 2 ^ 12) :
    bitField (sWord major funct3 first second constant) 0 7 = major ∧
      bitField (sWord major funct3 first second constant) 12 3 = funct3 ∧
      bitField (sWord major funct3 first second constant) 15 5 = first ∧
      bitField (sWord major funct3 first second constant) 20 5 = second ∧
      gather (sWord major funct3 first second constant) Immediate.store =
        constant := by
  have fields :=
    @cut_join
      [(7, major), (5, bitField constant 0 5), (3, funct3), (5, first),
        (5, second), (7, bitField constant 5 7)]
      (by
        simp only [List.forall_mem_cons]
        exact ⟨majorSmall, bitField_lt .., funct3Small, firstSmall,
          secondSmall, bitField_lt .., by simp⟩)
  simp only [List.map_cons, List.map_nil, cut, List.cons.injEq,
    Prod.mk.injEq, true_and, and_true] at fields
  rcases fields with ⟨sameMajor, low, sameFunct3, sameFirst, sameSecond, high⟩
  refine ⟨sameMajor, sameFunct3, sameFirst, sameSecond, ?_⟩
  refine @gather_eq_of_fields _ constant 0 _ (by decide) (by decide)
    (Nat.one_dvd _) constantSmall ?_
  simp only [Immediate.store, List.forall_mem_cons]
  exact ⟨low, high, by simp⟩

/-- The offset of a branch is gathered from where its fields were put. -/
theorem bWord_fields
    {offset : Nat}
    (firstSmall : first < 32)
    (secondSmall : second < 32)
    (even : 2 ∣ offset)
    (offsetSmall : offset < 2 ^ 13) :
    bitField (bWord major funct3 first second offset) 0 7 = major ∧
      bitField (bWord major funct3 first second offset) 12 3 = funct3 ∧
      bitField (bWord major funct3 first second offset) 15 5 = first ∧
      bitField (bWord major funct3 first second offset) 20 5 = second ∧
      gather (bWord major funct3 first second offset) Immediate.branch =
        offset := by
  have fields :=
    @cut_join
      [(7, major), (1, bitField offset 11 1), (4, bitField offset 1 4),
        (3, funct3), (5, first), (5, second), (6, bitField offset 5 6),
        (1, bitField offset 12 1)]
      (by
        simp only [List.forall_mem_cons]
        exact ⟨majorSmall, bitField_lt .., bitField_lt .., funct3Small,
          firstSmall, secondSmall, bitField_lt .., bitField_lt .., by simp⟩)
  simp only [List.map_cons, List.map_nil, cut, List.cons.injEq,
    Prod.mk.injEq, true_and, and_true] at fields
  rcases fields with
    ⟨sameMajor, eleventh, low, sameFunct3, sameFirst, sameSecond, high, sign⟩
  refine ⟨sameMajor, sameFunct3, sameFirst, sameSecond, ?_⟩
  refine gather_eq_of_fields (by decide) (by decide) even offsetSmall ?_
  simp only [Immediate.branch, List.forall_mem_cons]
  exact ⟨low, high, eleventh, sign, by simp⟩

end FieldsOf

end MachineCode.RiscV
