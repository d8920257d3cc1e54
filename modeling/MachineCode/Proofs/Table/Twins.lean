import MachineCode.Proofs.Table.Known

/-!
# Two words of one path

What two words have in common, told by fields and by known bits. Fields with
the same bits agree at each of their places (`testBit_eq_of_sameFields`), and
places that the paths of both words fix alike agree, too
(`Path.testBit_eq_of_fixAlike`). Words that agree at all places are the same.
-/

namespace MachineCode

/-! ## Fields -/

/-- Whether two words have the same bits in a field. -/
def SameField (left right : Nat) (field : Nat × Nat) : Prop :=
  bitField left field.1 field.2 = bitField right field.1 field.2

theorem sameField_iff {left right start length : Nat} :
    SameField left right (start, length) ↔
      bitField left start length = bitField right start length :=
  Iff.rfl

/-- A field of one bit. -/
theorem SameField.of_testBit
    {left right start : Nat}
    (same : left.testBit start = right.testBit start) :
    SameField left right (start, 1) := by
  apply Nat.eq_of_testBit_eq
  intro place
  rw [testBit_bitField, testBit_bitField]
  by_cases inside : place < 1
  · rw [Nat.lt_one_iff.mp inside, Nat.add_zero, same]
  · simp [inside]

theorem SameField.testBit_eq
    {left right start length place : Nat}
    (same : SameField left right (start, length))
    (above : start ≤ place)
    (below : place < start + length) :
    left.testBit place = right.testBit place := by
  have inside : place - start < length := by omega
  have bits := congrArg (·.testBit (place - start)) same
  simpa [testBit_bitField, inside, Nat.add_sub_cancel' above] using bits

/-- The bits of several fields. -/
def fieldsMask : List (Nat × Nat) → Nat
  | [] => 0
  | (start, length) :: fields => fieldMask start length ||| fieldsMask fields

theorem testBit_fieldMask (start length place : Nat) :
    (fieldMask start length).testBit place =
      decide (start ≤ place ∧ place < start + length) := by
  rw [fieldMask, Nat.testBit_mul_two_pow, Nat.testBit_two_pow_sub_one,
    ← Bool.decide_and, decide_eq_decide]
  omega

theorem fieldsMask_append (first second : List (Nat × Nat)) :
    fieldsMask (first ++ second) = fieldsMask first ||| fieldsMask second := by
  induction first with
  | nil => simp [fieldsMask]
  | cons field fields induction =>
      rw [List.cons_append, fieldsMask, fieldsMask, induction, Nat.or_assoc]

theorem testBit_eq_of_sameFields
    {left right place : Nat}
    {fields : List (Nat × Nat)}
    (same : ∀ field ∈ fields, SameField left right field)
    (inside : (fieldsMask fields).testBit place) :
    left.testBit place = right.testBit place := by
  induction fields with
  | nil => simp [fieldsMask] at inside
  | cons field fields induction =>
      rw [List.forall_mem_cons] at same
      rw [fieldsMask, Nat.testBit_or, Bool.or_eq_true, testBit_fieldMask,
        decide_eq_true_eq] at inside
      rcases inside with inside | later
      · exact same.1.testBit_eq inside.1 inside.2
      · exact induction same.2 later

/-- Words of some width are the same if all their bits are. -/
theorem eq_of_testBit_of_lt
    {left right width : Nat}
    (leftSmall : left < 2 ^ width)
    (rightSmall : right < 2 ^ width)
    (same : ∀ place < width, left.testBit place = right.testBit place) :
    left = right := by
  apply Nat.eq_of_testBit_eq
  intro place
  by_cases inside : place < width
  · exact same place inside
  · have wide : 2 ^ width ≤ 2 ^ place :=
      Nat.pow_le_pow_right (by decide) (Nat.not_lt.mp inside)
    rw [Nat.testBit_lt_two_pow (Nat.lt_of_lt_of_le leftSmall wide),
      Nat.testBit_lt_two_pow (Nat.lt_of_lt_of_le rightSmall wide)]

/-! ## Known bits of two words -/

theorem Known.Agrees.testBit_eq
    {known : Known}
    {word place : Nat}
    (agrees : known.Agrees word)
    (isKnown : known.mask.testBit place) :
    word.testBit place = known.value.testBit place := by
  rw [← agrees, Nat.testBit_and, isKnown, Bool.and_true]

namespace Path

/-- Whether a path ends with an opcode. -/
def decodes (path : Path) : Bool :=
  match path.ending with
  | .decode .. => true
  | .fail => false

/--
Whether two paths fix the same bits of their words, to the same values, but
for those of a mask.
-/
def fixAlike (width mask : Nat) (left right : Path) : Bool :=
  (left.fixedBits.mask &&& right.fixedBits.mask) ||| mask = 2 ^ width - 1 &&
    left.fixedBits.value ||| mask = right.fixedBits.value ||| mask

theorem testBit_eq_of_fixAlike
    {width mask : Nat}
    {leftPath rightPath : Path}
    (alike : fixAlike width mask leftPath rightPath)
    {left right : Nat}
    (leftAgrees : leftPath.fixedBits.Agrees left)
    (rightAgrees : rightPath.fixedBits.Agrees right)
    {place : Nat}
    (inside : place < width)
    (outside : mask.testBit place = false) :
    left.testBit place = right.testBit place := by
  rw [fixAlike, Bool.and_eq_true, decide_eq_true_eq, decide_eq_true_eq]
    at alike
  have isKnown := congrArg (·.testBit place) alike.1
  have sameValue := congrArg (·.testBit place) alike.2
  simp only [Nat.testBit_or, Nat.testBit_and, outside, Bool.or_false,
    Nat.testBit_two_pow_sub_one, inside, decide_true, Bool.and_eq_true]
    at isKnown sameValue
  rw [leftAgrees.testBit_eq isKnown.1, rightAgrees.testBit_eq isKnown.2,
    sameValue]

end Path

end MachineCode
