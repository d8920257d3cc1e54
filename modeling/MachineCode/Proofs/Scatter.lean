import MachineCode.Proofs.Bits64
import Mathlib.Data.List.Pairwise

/-!
# Gathering and scattering

Pieces that are separate move bits of a word of 64 bits one to one: no two of
them take the same bit, and no two give the same bit. What is gathered then
has the bits that the pieces move and no others (`testBit_gather_target`,
`testBit_gather_eq_false`). Scattering puts the bits of a value where the
pieces take them from and leaves the rest of the word alone
(`testBit_scatter_source`, `testBit_scatter_eq`). Gathering undoes it
(`UndoesScattering`): of a word that carries a value, the value is gathered.
-/

namespace MachineCode

namespace BitPiece

/-! ## Separate pieces -/

/-- Whether a place of the word is one that the piece takes. -/
def Takes (piece : BitPiece) (place : Nat) : Prop :=
  piece.source ≤ place ∧ place < piece.source + piece.length

/-- Whether a place of the result is one that the piece gives. -/
def Gives (piece : BitPiece) (place : Nat) : Prop :=
  piece.target ≤ place ∧ place < piece.target + piece.length

instance (piece : BitPiece) (place : Nat) : Decidable (piece.Takes place) :=
  inferInstanceAs (Decidable (_ ∧ _))

instance (piece : BitPiece) (place : Nat) : Decidable (piece.Gives place) :=
  inferInstanceAs (Decidable (_ ∧ _))

/-- Whether two pieces take bits of different ranges. -/
def TakesApart (left right : BitPiece) : Prop :=
  left.source + left.length ≤ right.source ∨
    right.source + right.length ≤ left.source

/-- Whether two pieces give bits of different ranges. -/
def GivesApart (left right : BitPiece) : Prop :=
  left.target + left.length ≤ right.target ∨
    right.target + right.length ≤ left.target

instance (left right : BitPiece) : Decidable (left.TakesApart right) :=
  inferInstanceAs (Decidable (_ ∨ _))

instance (left right : BitPiece) : Decidable (left.GivesApart right) :=
  inferInstanceAs (Decidable (_ ∨ _))

/-- Whether pieces move bits of a word of 64 bits one to one. -/
structure Separate (pieces : List BitPiece) : Prop where
  nonempty : ∀ piece ∈ pieces, 0 < piece.length
  source_le : ∀ piece ∈ pieces, piece.source + piece.length ≤ 64
  target_le : ∀ piece ∈ pieces, piece.target + piece.length ≤ 64
  takesApart : pieces.Pairwise TakesApart
  givesApart : pieces.Pairwise GivesApart

instance (pieces : List BitPiece) : Decidable (Separate pieces) :=
  decidable_of_iff
    ((∀ piece ∈ pieces, 0 < piece.length) ∧
      (∀ piece ∈ pieces, piece.source + piece.length ≤ 64) ∧
      (∀ piece ∈ pieces, piece.target + piece.length ≤ 64) ∧
      pieces.Pairwise TakesApart ∧ pieces.Pairwise GivesApart)
    ⟨fun ⟨nonempty, source, target, takes, gives⟩ =>
        ⟨nonempty, source, target, takes, gives⟩,
      fun separate =>
        ⟨separate.nonempty, separate.source_le, separate.target_le,
          separate.takesApart, separate.givesApart⟩⟩

instance : Std.Symm GivesApart where
  symm _ _ := Or.symm

theorem TakesApart.not_takes
    {left right : BitPiece}
    (apart : left.TakesApart right)
    {place : Nat}
    (takes : left.Takes place) :
    ¬ right.Takes place := by
  simp only [TakesApart, Takes] at *
  omega

/-- A place that is given by two of the pieces is given by one of them. -/
theorem Separate.eq_of_gives
    {pieces : List BitPiece}
    (separate : Separate pieces)
    {left right : BitPiece}
    (leftListed : left ∈ pieces)
    (rightListed : right ∈ pieces)
    {place : Nat}
    (leftGives : left.Gives place)
    (rightGives : right.Gives place) :
    left = right := by
  by_contra different
  have apart : left.GivesApart right :=
    separate.givesApart.forall leftListed rightListed different
  simp only [GivesApart, Gives] at *
  omega

/-! ## Gathering -/

/-- A piece has the bits that it gives. -/
theorem testBit_extract (piece : BitPiece) (word place : Nat) :
    (piece.extract word).testBit place =
      (decide (place < 64) && decide (piece.Gives place) &&
        word.testBit (piece.source + (place - piece.target))) := by
  have same :
      piece.Gives place ↔
        piece.target ≤ place ∧ place - piece.target < piece.length := by
    rw [Gives]
    omega
  rw [extract, Nat.testBit_mod_two_pow, Nat.testBit_mul_two_pow,
    testBit_bitField]
  simp only [same, Bool.decide_and, Bool.and_assoc]

theorem testBit_gather (word place : Nat) (pieces : List BitPiece) :
    (gather word pieces).testBit place =
      pieces.any fun piece => (piece.extract word).testBit place := by
  have step (collected : Nat) :
      (pieces.foldl
          (fun collected piece => collected ||| piece.extract word)
          collected).testBit place =
        (collected.testBit place ||
          pieces.any fun piece => (piece.extract word).testBit place) := by
    induction pieces generalizing collected with
    | nil => simp
    | cons piece pieces induction =>
        rw [List.foldl_cons, induction, Nat.testBit_or, List.any_cons,
          Bool.or_assoc]
  rw [gather, step, Nat.zero_testBit, Bool.false_or]

/-- Nothing is gathered where no piece gives anything. -/
theorem testBit_gather_eq_false
    {pieces : List BitPiece}
    {place : Nat}
    (outside : ∀ piece ∈ pieces, ¬ piece.Gives place)
    (word : Nat) :
    (gather word pieces).testBit place = false := by
  rw [testBit_gather, List.any_eq_false]
  intro piece listed
  simp [testBit_extract, outside piece listed]

section Gather

variable
  {pieces : List BitPiece}
  (separate : Separate pieces)
include separate

/-- Where a piece gives a bit, no other piece does. -/
theorem testBit_gather_of_gives
    {piece : BitPiece}
    (listed : piece ∈ pieces)
    {place : Nat}
    (gives : piece.Gives place)
    (word : Nat) :
    (gather word pieces).testBit place =
      word.testBit (piece.source + (place - piece.target)) := by
  have inside : place < 64 :=
    Nat.lt_of_lt_of_le gives.2 (separate.target_le piece listed)
  rw [testBit_gather, Bool.eq_iff_iff, List.any_eq_true]
  constructor
  · rintro ⟨other, otherListed, set⟩
    simp only [testBit_extract, Bool.and_eq_true, decide_eq_true_eq] at set
    rcases set with ⟨⟨-, otherGives⟩, set⟩
    rw [separate.eq_of_gives listed otherListed gives otherGives]
    exact set
  · intro set
    exact ⟨piece, listed, by simp [testBit_extract, inside, gives, set]⟩

/-- The bits that a piece takes are gathered where it gives them. -/
theorem testBit_gather_target
    {piece : BitPiece}
    (listed : piece ∈ pieces)
    {index : Nat}
    (inside : index < piece.length)
    (word : Nat) :
    (gather word pieces).testBit (piece.target + index) =
      word.testBit (piece.source + index) := by
  rw [testBit_gather_of_gives separate listed
    ⟨Nat.le_add_right .., Nat.add_lt_add_left inside _⟩,
    Nat.add_sub_cancel_left]

end Gather

end BitPiece

/-! ## Scattering -/

/-- The word with some bits of a value where the piece takes them from. -/
def BitPiece.deposit (piece : BitPiece) (value word : Nat) : Nat :=
  word % 2 ^ piece.source +
    2 ^ piece.source *
      (bitField value piece.target piece.length +
        2 ^ piece.length * (word / 2 ^ (piece.source + piece.length)))

/-- The word with the bits of a value where the pieces take them from. -/
def scatter (value word : Nat) (pieces : List BitPiece) : Nat :=
  pieces.foldl (fun word piece => piece.deposit value word) word

namespace BitPiece

theorem testBit_deposit (piece : BitPiece) (value word place : Nat) :
    (piece.deposit value word).testBit place =
      if piece.Takes place then
        value.testBit (piece.target + (place - piece.source))
      else
        word.testBit place := by
  have low := Nat.mod_lt word (Nat.two_pow_pos piece.source)
  have middle := bitField_lt value piece.target piece.length
  rw [deposit, Nat.add_comm, Nat.testBit_two_pow_mul_add _ low]
  split
  · next below =>
    have outside : ¬ piece.Takes place := fun takes =>
      Nat.not_le.mpr below takes.1
    simp [outside, Nat.testBit_mod_two_pow, below]
  next notBelow =>
  have reaches : piece.source ≤ place := Nat.le_of_not_lt notBelow
  rw [Nat.add_comm, Nat.testBit_two_pow_mul_add _ middle]
  split
  · next inside =>
    have takes : piece.Takes place :=
      ⟨reaches, (Nat.sub_lt_iff_lt_add' reaches).mp inside⟩
    simp [takes, testBit_bitField, inside]
  · next above =>
    have outside : ¬ piece.Takes place := fun takes =>
      above (Nat.sub_lt_left_of_lt_add reaches takes.2)
    have same :
        piece.source + piece.length +
            (place - piece.source - piece.length) =
          place := by
      omega
    simp [outside, Nat.testBit_div_two_pow, Nat.add_comm, same]

/-- Bits that no piece takes stay as they are in the word. -/
theorem testBit_scatter_eq
    {pieces : List BitPiece}
    {place : Nat}
    (outside : ∀ piece ∈ pieces, ¬ piece.Takes place)
    (value word : Nat) :
    (scatter value word pieces).testBit place = word.testBit place := by
  induction pieces generalizing word with
  | nil => rfl
  | cons piece pieces induction =>
      rw [List.forall_mem_cons] at outside
      rw [scatter, List.foldl_cons, ← scatter, induction outside.2,
        testBit_deposit, if_neg outside.1]

theorem testBit_scatter_of_takes
    {pieces : List BitPiece}
    (apart : pieces.Pairwise TakesApart)
    {piece : BitPiece}
    (listed : piece ∈ pieces)
    {place : Nat}
    (takes : piece.Takes place)
    (value word : Nat) :
    (scatter value word pieces).testBit place =
      value.testBit (piece.target + (place - piece.source)) := by
  induction pieces generalizing word with
  | nil => cases listed
  | cons first pieces induction =>
      rw [List.pairwise_cons] at apart
      rw [scatter, List.foldl_cons, ← scatter]
      rcases List.mem_cons.mp listed with rfl | listed
      · -- What is put there is not overwritten by the later pieces.
        rw [testBit_scatter_eq fun other otherListed =>
          (apart.1 other otherListed).not_takes takes, testBit_deposit,
          if_pos takes]
      · exact induction apart.2 listed _

/-- The bits of the value stand where the pieces take them from. -/
theorem testBit_scatter_source
    {pieces : List BitPiece}
    (apart : pieces.Pairwise TakesApart)
    {piece : BitPiece}
    (listed : piece ∈ pieces)
    {index : Nat}
    (inside : index < piece.length)
    (value word : Nat) :
    (scatter value word pieces).testBit (piece.source + index) =
      value.testBit (piece.target + index) := by
  rw [testBit_scatter_of_takes apart listed
    ⟨Nat.le_add_right .., Nat.add_lt_add_left inside _⟩,
    Nat.add_sub_cancel_left]

/-! ## Gathering undoes scattering -/

/-- Whether a word has the bits of a value where pieces take them from. -/
def Carries (pieces : List BitPiece) (value word : Nat) : Prop :=
  ∀ piece ∈ pieces, ∀ index < piece.length,
    word.testBit (piece.source + index) =
      value.testBit (piece.target + index)

/-- Whether the set bits of a value are bits that the pieces give. -/
def Covers (pieces : List BitPiece) (value : Nat) : Prop :=
  ∀ place, value.testBit place = true →
    ∃ piece ∈ pieces, piece.Gives place

/-- Of a word that carries a value, whatever else it holds, the value. -/
theorem gather_eq_of_carries
    {pieces : List BitPiece}
    (separate : Separate pieces)
    {value word : Nat}
    (covers : Covers pieces value)
    (carries : Carries pieces value word) :
    gather word pieces = value := by
  apply Nat.eq_of_testBit_eq
  intro place
  by_cases given : ∃ piece ∈ pieces, piece.Gives place
  · rcases given with ⟨piece, listed, gives⟩
    have inside : place - piece.target < piece.length :=
      Nat.sub_lt_left_of_lt_add gives.1 gives.2
    rw [testBit_gather_of_gives separate listed gives,
      carries piece listed _ inside, Nat.add_sub_cancel' gives.1]
  · have outside : ∀ piece ∈ pieces, ¬ piece.Gives place :=
      fun piece listed gives => given ⟨piece, listed, gives⟩
    rw [testBit_gather_eq_false outside]
    exact (Bool.eq_false_iff.mpr fun set => given (covers place set)).symm

/-- Whether gathering with these pieces undoes scattering with them. -/
structure UndoesScattering (pieces : List BitPiece) : Prop where
  /-- The same is gathered with shifts and masks. -/
  computed :
    ∀ word : BitVec 64,
      (Bits64.gather word pieces).toNat = gather word.toNat pieces
  moved :
    ∀ word, ∀ piece ∈ pieces, ∀ index < piece.length,
      (gather word pieces).testBit (piece.target + index) =
        word.testBit (piece.source + index)
  elsewhere :
    ∀ word place, (∀ piece ∈ pieces, ¬ piece.Gives place) →
      (gather word pieces).testBit place = false
  carried : ∀ value word, Carries pieces value (scatter value word pieces)
  kept :
    ∀ value word place, (∀ piece ∈ pieces, ¬ piece.Takes place) →
      (scatter value word pieces).testBit place = word.testBit place
  gathered :
    ∀ value word, Covers pieces value → Carries pieces value word →
      gather word pieces = value
  undone :
    ∀ value word, Covers pieces value →
      gather (scatter value word pieces) pieces = value

theorem carries_scatter
    {pieces : List BitPiece}
    (separate : Separate pieces)
    (value word : Nat) :
    Carries pieces value (scatter value word pieces) :=
  fun _ listed _ inside =>
    testBit_scatter_source separate.takesApart listed inside value word

theorem Separate.undoesScattering
    {pieces : List BitPiece}
    (separate : Separate pieces) :
    UndoesScattering pieces where
  computed word := Bits64.toNat_gather word pieces
  moved word _ listed _ inside :=
    testBit_gather_target separate listed inside word
  elsewhere word _ outside := testBit_gather_eq_false outside word
  carried := carries_scatter separate
  kept value word _ outside := testBit_scatter_eq outside value word
  gathered _ _ covers carries := gather_eq_of_carries separate covers carries
  undone value word covers :=
    gather_eq_of_carries separate covers (carries_scatter separate value word)

end BitPiece

end MachineCode
