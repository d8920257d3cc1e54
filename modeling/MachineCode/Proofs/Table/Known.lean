import MachineCode.Proofs.Table.Paths
import Mathlib.Algebra.Group.Nat.Defs

/-!
# Known bits

Partial knowledge of a word: some bits are known, the others are not. It
decides whether a field of the word has a value, if the known bits of the
field are enough for that (`Known.verdict`), and so which tests of a decode
program hold. The first path of a program that is possible is the path that
the word takes, if it is also certain (`Path.find?_holds_of_possible`).

Verdicts are computed with whole masks, so that a long list of paths can be
searched by evaluation.
-/

namespace MachineCode

/-- The bits of the field of `length` bits at `start`. -/
def fieldMask (start length : Nat) : Nat :=
  (2 ^ length - 1) * 2 ^ start

/-- To keep the bits of a field is to move the field to its place. -/
theorem and_fieldMask (word start length : Nat) :
    word &&& fieldMask start length =
      bitField word start length * 2 ^ start := by
  apply Nat.eq_of_testBit_eq
  intro place
  rw [Nat.testBit_and, fieldMask, Nat.testBit_mul_two_pow,
    Nat.testBit_mul_two_pow, testBit_bitField, Nat.testBit_two_pow_sub_one]
  by_cases above : start ≤ place
  · rw [Nat.add_sub_cancel' above]
    simp [above, Bool.and_comm]
  · simp [above]

/-- The known bits of a word. -/
structure Known where
  /-- Which bits are known. -/
  mask : Nat
  /-- The known bits, each at its place. -/
  value : Nat
deriving DecidableEq, Repr

namespace Known

/-- Whether a word has the known bits. -/
def Agrees (known : Known) (word : Nat) : Prop :=
  word &&& known.mask = known.value

/-- Nothing is known. -/
def nothing : Known :=
  ⟨0, 0⟩

/-- A field has a value. -/
def field (start length value : Nat) : Known :=
  ⟨fieldMask start length, value * 2 ^ start⟩

/-- What is known by one or the other. -/
def both (left right : Known) : Known :=
  ⟨left.mask ||| right.mask, left.value ||| right.value⟩

theorem agrees_nothing (word : Nat) : nothing.Agrees word :=
  Nat.and_zero word

theorem agrees_field {word start length value : Nat}
    (same : bitField word start length = value) :
    (field start length value).Agrees word := by
  rw [Agrees, field, and_fieldMask, same]

theorem Agrees.both
    {left right : Known}
    {word : Nat}
    (leftAgrees : left.Agrees word)
    (rightAgrees : right.Agrees word) :
    (left.both right).Agrees word := by
  rw [Agrees] at leftAgrees rightAgrees
  rw [Agrees, Known.both, Nat.and_or_distrib_left, leftAgrees, rightAgrees]

/-- Whether a field has a value, if the known bits decide it. -/
def verdict (known : Known) (start length value : Nat) : Option Bool :=
  if 2 ^ length ≤ value then
    some false
  else if
      value * 2 ^ start &&& known.mask ≠
        known.value &&& fieldMask start length then
    some false
  else if fieldMask start length &&& known.mask = fieldMask start length then
    some true
  else
    none

/-- A verdict is right about every word that has the known bits. -/
theorem Agrees.verdict
    {known : Known}
    {word start length value : Nat}
    (agrees : known.Agrees word)
    {decided : Bool}
    (judged : known.verdict start length value = some decided) :
    decide (bitField word start length = value) = decided := by
  rw [Agrees] at agrees
  rw [Known.verdict] at judged
  split at judged
  · next wide =>
    cases judged
    have small := bitField_lt word start length
    simp only [decide_eq_false_iff_not]
    omega
  split at judged
  · next differs =>
    cases judged
    rw [decide_eq_false_iff_not]
    rintro rfl
    refine differs ?_
    rw [← and_fieldMask, ← agrees, Nat.and_assoc, Nat.and_assoc,
      Nat.and_comm known.mask]
  split at judged
  · next wide same inside =>
    cases judged
    rw [decide_eq_true_eq]
    have kept : value * 2 ^ start &&& known.mask = value * 2 ^ start := by
      have whole :
          value * 2 ^ start &&& fieldMask start length =
            value * 2 ^ start := by
        rw [and_fieldMask, bitField,
          Nat.mul_div_cancel _ (Nat.two_pow_pos start),
          Nat.mod_eq_of_lt (by omega)]
      rw [← whole, Nat.and_assoc, inside]
    have moved :
        bitField word start length * 2 ^ start = value * 2 ^ start := by
      calc bitField word start length * 2 ^ start
          = word &&& fieldMask start length := (and_fieldMask ..).symm
        _ = word &&& (fieldMask start length &&& known.mask) := by rw [inside]
        _ = word &&& known.mask &&& fieldMask start length := by
            rw [Nat.and_comm (fieldMask start length), Nat.and_assoc]
        _ = known.value &&& fieldMask start length := by rw [agrees]
        _ = value * 2 ^ start &&& known.mask := (not_not.mp same).symm
        _ = value * 2 ^ start := kept
    exact Nat.eq_of_mul_eq_mul_right (Nat.two_pow_pos start) moved
  · cases judged

/-- Whether the known bits meet an expectation. -/
def meets (known : Known) (zeros ones : Nat) : Bool :=
  zeros &&& known.mask = zeros && known.value &&& zeros = 0 &&
    ones &&& known.mask = ones && known.value &&& ones = ones

/-- What the known bits meet, a word that has them does not violate. -/
theorem Agrees.not_violates
    {known : Known}
    {word zeros ones : Nat}
    (agrees : known.Agrees word)
    (met : known.meets zeros ones) :
    violates word zeros ones = false := by
  rw [Agrees] at agrees
  simp only [meets, Bool.and_eq_true, decide_eq_true_eq] at met
  rcases met with ⟨⟨⟨zerosKnown, areZero⟩, onesKnown⟩, areOne⟩
  have zerosKept : word &&& zeros = 0 := by
    rw [← zerosKnown, Nat.and_comm zeros, ← Nat.and_assoc, agrees, areZero]
  have onesKept : word &&& ones = ones := by
    calc word &&& ones
        = word &&& known.mask &&& ones := by
          rw [Nat.and_assoc, Nat.and_comm known.mask, onesKnown]
      _ = ones := by rw [agrees, areOne]
  simp [violates, zerosKept, onesKept]

end Known

/--
The first member that may pass a test is the first one that passes, if it does
and none that passes was ruled out.
-/
theorem find?_eq_some_of_possible
    {α : Type}
    {possible passes : α → Bool}
    {members : List α}
    (sound : ∀ member ∈ members, passes member → possible member)
    {found : α}
    (first : members.find? possible = some found)
    (passed : passes found) :
    members.find? passes = some found := by
  rcases List.find?_eq_some_iff_append.mp first with
    ⟨-, earlier, later, rfl, impossible⟩
  refine List.find?_eq_some_iff_append.mpr
    ⟨passed, earlier, later, rfl, ?_⟩
  intro member before
  by_contra also
  simp only [Bool.not_eq_true', Bool.not_eq_false] at also
  have isPossible := sound member (List.mem_append_left _ before) also
  have isImpossible := impossible member before
  rw [isPossible] at isImpossible
  cases isImpossible

/-! ## Tests and paths -/

/-- Whether a test holds, if what is known decides it. -/
def Guard.verdict (known : Known) (foreseen : Nat → Option Bool) :
    Guard → Option Bool
  | .field start length value => known.verdict start length value
  | .otherField start length value =>
    (known.verdict start length value).map not
  | .granted predicate => foreseen predicate
  | .refused predicate => (foreseen predicate).map not

section Verdicts

variable
  {known : Known}
  {foreseen : Nat → Option Bool}
  {grants : Nat → Bool}
  {word : Nat}

theorem Guard.holds_of_verdict
    (agrees : known.Agrees word)
    (foresees :
      ∀ predicate decided, foreseen predicate = some decided →
        grants predicate = decided)
    {guard : Guard}
    {decided : Bool}
    (judged : guard.verdict known foreseen = some decided) :
    guard.holds grants word = decided := by
  cases guard with
  | field start length value => exact agrees.verdict judged
  | granted predicate => exact foresees predicate decided judged
  | otherField start length value =>
      rcases Option.map_eq_some_iff.mp judged with ⟨opposite, inner, rfl⟩
      rw [Guard.holds, ← agrees.verdict inner]
      simp
  | refused predicate =>
      rcases Option.map_eq_some_iff.mp judged with ⟨opposite, inner, rfl⟩
      rw [Guard.holds, foresees predicate opposite inner]

namespace Path

/-- Whether no test of the path is known to fail. -/
def possible (known : Known) (foreseen : Nat → Option Bool) (path : Path) :
    Bool :=
  path.guards.all fun guard => guard.verdict known foreseen ≠ some false

/-- Whether all tests of the path are known to hold. -/
def certain (known : Known) (foreseen : Nat → Option Bool) (path : Path) :
    Bool :=
  path.guards.all fun guard => guard.verdict known foreseen = some true

theorem possible_of_holds
    (agrees : known.Agrees word)
    (foresees :
      ∀ predicate decided, foreseen predicate = some decided →
        grants predicate = decided)
    {path : Path}
    (holds : path.holds grants word) :
    path.possible known foreseen := by
  rw [possible, List.all_eq_true]
  intro guard member
  rw [decide_eq_true_eq]
  intro judged
  have fails := Guard.holds_of_verdict agrees foresees judged
  have passes := List.all_eq_true.mp holds guard member
  rw [fails] at passes
  cases passes

theorem holds_of_certain
    (agrees : known.Agrees word)
    (foresees :
      ∀ predicate decided, foreseen predicate = some decided →
        grants predicate = decided)
    {path : Path}
    (certain : path.certain known foreseen) :
    path.holds grants word := by
  rw [holds, List.all_eq_true]
  intro guard member
  have judged := List.all_eq_true.mp certain guard member
  rw [decide_eq_true_eq] at judged
  exact Guard.holds_of_verdict agrees foresees judged

/-- The first possible path is the first one that holds, if it is certain. -/
theorem find?_holds_of_possible
    (agrees : known.Agrees word)
    (foresees :
      ∀ predicate decided, foreseen predicate = some decided →
        grants predicate = decided)
    {paths : List Path}
    {path : Path}
    (first : paths.find? (possible known foreseen) = some path)
    (certain : path.certain known foreseen) :
    paths.find? (holds grants word) = some path :=
  find?_eq_some_of_possible
    (fun _ _ passes => possible_of_holds agrees foresees passes) first
    (holds_of_certain agrees foresees certain)

/-! ## What a path says of its words -/

/-- The bits that the tests of a list fix. -/
def knownBy : List Guard → Known
  | [] => .nothing
  | .field start length value :: guards =>
    (Known.field start length value).both (knownBy guards)
  | _ :: guards => knownBy guards

/-- The bits of a word that takes the path and meets its expectation. -/
def fixedBits (path : Path) : Known :=
  match path.ending with
  | .decode _ _ zeros ones =>
    (Known.both ⟨zeros, 0⟩ ⟨ones, ones⟩).both (knownBy path.guards)
  | .fail => knownBy path.guards

theorem agrees_knownBy
    {guards : List Guard}
    (holds : guards.all (Guard.holds grants word)) :
    (knownBy guards).Agrees word := by
  induction guards with
  | nil => exact Known.agrees_nothing word
  | cons guard guards induction =>
      rw [List.all_cons, Bool.and_eq_true] at holds
      cases guard with
      | field start length value =>
          have same := holds.1
          rw [Guard.holds, decide_eq_true_eq] at same
          exact (Known.agrees_field same).both (induction holds.2)
      | otherField | granted | refused => exact induction holds.2

theorem agrees_fixedBits
    {path : Path}
    (holds : path.holds grants word)
    {opcode format zeros ones : Nat}
    (ending : path.ending = .decode opcode format zeros ones)
    (met : violates word zeros ones = false) :
    path.fixedBits.Agrees word := by
  simp only [violates, Bool.or_eq_false_iff, decide_eq_false_iff_not,
    not_not] at met
  rw [fixedBits, ending]
  exact Known.Agrees.both (Known.Agrees.both met.1 met.2)
    (agrees_knownBy holds)

/--
Whether a test on a field holds for the words that take a path, as far as the
path tells: it may make the test itself, or the opposite one.
-/
def judge (path : Path) : Guard → Option Bool
  | .field start length value =>
    if .field start length value ∈ path.guards then some true
    else if .otherField start length value ∈ path.guards then some false
    else path.fixedBits.verdict start length value
  | .otherField start length value =>
    if .otherField start length value ∈ path.guards then some true
    else if .field start length value ∈ path.guards then some false
    else (path.fixedBits.verdict start length value).map not
  | .granted _ | .refused _ => none

theorem decide_of_mem
    {path : Path}
    (holds : path.holds grants word)
    {start length value : Nat} :
    (.field start length value ∈ path.guards →
        decide (bitField word start length = value) = true) ∧
      (.otherField start length value ∈ path.guards →
        decide (bitField word start length = value) = false) := by
  constructor
  · intro member
    exact List.all_eq_true.mp holds _ member
  · intro member
    have other := List.all_eq_true.mp holds _ member
    rw [Guard.holds, decide_eq_true_eq] at other
    exact decide_eq_false other

theorem holds_of_judge
    {path : Path}
    (holds : path.holds grants word)
    (agrees : path.fixedBits.Agrees word)
    {guard : Guard}
    {decided : Bool}
    (judged : path.judge guard = some decided)
    (others : Nat → Bool) :
    guard.holds others word = decided := by
  cases guard with
  | field start length value =>
      rcases @decide_of_mem _ _ _ holds start length value with ⟨same, other⟩
      rw [judge] at judged
      split at judged
      · next member =>
        cases judged
        exact same member
      split at judged
      · next member =>
        cases judged
        exact other member
      · exact agrees.verdict judged
  | otherField start length value =>
      rcases @decide_of_mem _ _ _ holds start length value with ⟨same, other⟩
      rw [Guard.holds, decide_not]
      rw [judge] at judged
      split at judged
      · next member =>
        cases judged
        rw [other member]
        rfl
      split at judged
      · next member =>
        cases judged
        rw [same member]
        rfl
      · rcases Option.map_eq_some_iff.mp judged with ⟨opposite, inner, rfl⟩
        rw [agrees.verdict inner]
  | granted | refused => cases judged

end Path

end Verdicts

end MachineCode
