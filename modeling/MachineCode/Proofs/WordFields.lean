import MachineCode.Proofs.Bits64
import MachineCode.Proofs.Errors
import MachineCode.Proofs.FirstWord
import Mathlib.Algebra.BigOperators.Fin

/-!
# Words are numbers to the base 256

The value of a word is the number whose digits are its bytes, in the byte
order of the family (`ByteOrder.value_eq_sum`). Bytes that are as many and
have the same value are the same bytes (`ByteOrder.value_inj`).

Fields are quotients and remainders of the value. Those that follow each other
from the lowest bit to the highest one (`placesFrom`) add up to the value,
each moved to where it starts (`Word.exists_reassemble_eq`). So they tell the
bytes of the word (`Word.bytes_eq_of_fields?`).
-/

namespace MachineCode

/-! ## Bytes as digits -/

section Digits

theorem littleEndian_append (low high : List UInt8) :
    littleEndian (low ++ high) =
      littleEndian low + 256 ^ low.length * littleEndian high := by
  induction low with
  | nil => simp [littleEndian]
  | cons byte low induction =>
      rw [List.cons_append, littleEndian, littleEndian, induction,
        List.length_cons, Nat.pow_succ', Nat.mul_add, Nat.add_assoc,
        Nat.mul_assoc]

theorem littleEndian_eq_sum (bytes : List UInt8) :
    littleEndian bytes =
      ∑ place : Fin bytes.length, bytes[place].toNat * 256 ^ place.val := by
  induction bytes with
  | nil => rfl
  | cons byte bytes induction =>
      rw [littleEndian, induction, Finset.mul_sum]
      refine Eq.trans ?_ (Fin.sum_univ_succ _).symm
      refine congrArg₂ (· + ·) (Nat.mul_one _).symm ?_
      refine Finset.sum_congr rfl fun place _ => ?_
      calc 256 * (bytes[place].toNat * 256 ^ place.val)
          = bytes[place].toNat * (256 * 256 ^ place.val) :=
            Nat.mul_left_comm ..
        _ = bytes[place].toNat * 256 ^ (place.val + 1) := by
            rw [Nat.pow_succ']

/-- As `littleEndian_eq_sum`, for bytes whose first one counts most. -/
theorem littleEndian_reverse_eq_sum (bytes : List UInt8) :
    littleEndian bytes.reverse =
      ∑ place : Fin bytes.length,
        bytes[place].toNat * 256 ^ (bytes.length - 1 - place.val) := by
  induction bytes with
  | nil => rfl
  | cons byte bytes induction =>
      rw [List.reverse_cons, littleEndian_append, induction, Nat.add_comm]
      refine Eq.trans ?_ (Fin.sum_univ_succ _).symm
      refine congrArg₂ (· + ·) ?_ ?_
      · simp [littleEndian, Nat.mul_comm]
      · refine Finset.sum_congr rfl fun place _ => ?_
        have same :
            bytes.length - 1 - place.val =
              bytes.length + 1 - 1 - (place.val + 1) := by
          omega
        exact congrArg (fun exponent => bytes[place].toNat * 256 ^ exponent)
          same

/-- The digits of a number are told by it, if their number is known. -/
theorem littleEndian_inj
    {left right : List UInt8}
    (sameLength : left.length = right.length)
    (same : littleEndian left = littleEndian right) :
    left = right := by
  induction left generalizing right with
  | nil => exact (List.length_eq_zero_iff.mp sameLength.symm).symm
  | cons byte left induction =>
      cases right with
      | nil => cases sameLength
      | cons other right =>
          have small := byte.toNat_lt
          have otherSmall := other.toNat_lt
          rw [littleEndian, littleEndian] at same
          have first : byte.toNat = other.toNat := by omega
          have rest : littleEndian left = littleEndian right := by omega
          rw [UInt8.toNat_inj.mp first,
            induction (Nat.succ.inj sameLength) rest]

end Digits

namespace ByteOrder

variable (order : ByteOrder)

/-- The exponent of the byte at a place, out of a number of bytes. -/
def exponent (count place : Nat) : Nat :=
  match order with
  | .little => place
  | .big => count - 1 - place

theorem value_eq_sum (bytes : List UInt8) :
    order.value bytes =
      ∑ place : Fin bytes.length,
        bytes[place].toNat * 256 ^ order.exponent bytes.length place := by
  cases order with
  | little => exact littleEndian_eq_sum bytes
  | big => exact littleEndian_reverse_eq_sum bytes

theorem value_inj
    {left right : List UInt8}
    (sameLength : left.length = right.length)
    (same : order.value left = order.value right) :
    left = right := by
  cases order with
  | little => exact littleEndian_inj sameLength same
  | big =>
      refine List.reverse_injective (littleEndian_inj ?_ same)
      rw [List.length_reverse, List.length_reverse, sameLength]

/-- The value, computed by shifting in the byte that counts most first. -/
def value64 (bytes : List UInt8) : BitVec 64 :=
  match order with
  | .little => Bits64.ofBytes bytes.reverse
  | .big => Bits64.ofBytes bytes

theorem toNat_value64
    {bytes : List UInt8}
    (short : bytes.length ≤ 8) :
    (order.value64 bytes).toNat = order.value bytes := by
  cases order with
  | little =>
      rw [value64, Bits64.toNat_ofBytes (by simpa using short),
        List.reverse_reverse, value]
  | big => exact Bits64.toNat_ofBytes short

end ByteOrder

/-! ## Fields -/

/-- A field that is cut in two. -/
theorem bitField_add (word start length rest : Nat) :
    bitField word start (length + rest) =
      bitField word start length +
        2 ^ length * bitField word (start + length) rest := by
  rw [bitField, bitField, bitField, Nat.pow_add, Nat.mod_mul, Nat.pow_add,
    Nat.div_div_eq_div_mul]

/--
The places of fields that follow each other from a bit on: where each starts,
and its length.
-/
def placesFrom : (start : Nat) → List Nat → List (Nat × Nat)
  | _, [] => []
  | start, length :: lengths =>
    (start, length) :: placesFrom (start + length) lengths

/-- The sum of the fields at some places, each moved to where it starts. -/
def reassemble (places : List (Nat × Nat)) (fields : List Nat) : Nat :=
  (List.zipWith (fun place field => field * 2 ^ place.1) places fields).sum

namespace Word

/-- The fields at some places, if the word has all of them. -/
def fields? (word : Word) (places : List (Nat × Nat)) : Option (List Nat) :=
  places.mapM fun place => word.field? place.1 place.2

theorem field?_eq_ite (word : Word) (start length : Nat) :
    word.field? start length =
      if 0 < length ∧ start + length ≤ word.width then
        some (word.value / 2 ^ start % 2 ^ length)
      else none := by
  rw [field?]
  split
  · next outside => exact (if_neg (by omega)).symm
  · next inside => exact (if_pos (by omega)).symm

theorem fields?_placesFrom
    {word : Word}
    {start : Nat}
    {lengths : List Nat}
    (positive : ∀ length ∈ lengths, 0 < length)
    (inside : start + lengths.sum ≤ word.width) :
    ∃ fields,
      word.fields? (placesFrom start lengths) = some fields ∧
        reassemble (placesFrom start lengths) fields =
          2 ^ start * bitField word.value start lengths.sum := by
  induction lengths generalizing start with
  | nil =>
      refine ⟨[], rfl, ?_⟩
      simp [reassemble, placesFrom, bitField, Nat.mod_one]
  | cons length lengths induction =>
      rw [List.forall_mem_cons] at positive
      rw [List.sum_cons] at inside ⊢
      obtain ⟨fields, read, sum⟩ :=
        induction positive.2 (by omega : start + length + lengths.sum ≤ _)
      have first :=
        @field?_eq_some word start length (by omega) (by omega)
      refine ⟨bitField word.value start length :: fields, ?_, ?_⟩
      · rw [fields?, placesFrom, List.mapM_cons, first, ← fields?, read]
        rfl
      · rw [reassemble, placesFrom, List.zipWith_cons_cons, List.sum_cons,
          ← reassemble, sum, bitField_add, Nat.mul_add, ← Nat.mul_assoc,
          ← Nat.pow_add, Nat.mul_comm (bitField ..)]

/-- Fields without a gap make up the value. -/
theorem exists_reassemble_eq
    {word : Word}
    {lengths : List Nat}
    (positive : ∀ length ∈ lengths, 0 < length)
    (whole : lengths.sum = word.width) :
    ∃ fields,
      word.fields? (placesFrom 0 lengths) = some fields ∧
        reassemble (placesFrom 0 lengths) fields = word.value := by
  obtain ⟨fields, read, sum⟩ :=
    fields?_placesFrom positive (by omega : 0 + lengths.sum ≤ word.width)
  have small : word.value < 2 ^ word.width := word.value_lt
  refine ⟨fields, read, sum.trans ?_⟩
  rw [Nat.pow_zero, Nat.one_mul, whole, bitField_zero_of_lt small]

/-! ## Words that are read -/

/-- What a word tells of its bytes, and how. -/
structure IsNumberOf
    (order : ByteOrder)
    (bytes : List UInt8)
    (word : Word) :
    Prop where
  bytes_eq : word.bytes = bytes
  value_eq :
    word.value =
      ∑ place : Fin bytes.length,
        bytes[place].toNat * 256 ^ order.exponent bytes.length place
  value_computed : (order.value64 bytes).toNat = word.value
  field?_eq :
    ∀ start length,
      word.field? start length =
        if 0 < length ∧ start + length ≤ 8 * bytes.length then
          some (word.value / 2 ^ start % 2 ^ length)
        else none
  field_computed :
    ∀ start length,
      (Bits64.field (order.value64 bytes) start length).toNat =
        word.value / 2 ^ start % 2 ^ length
  reassembled :
    ∀ lengths : List Nat,
      (∀ length ∈ lengths, 0 < length) →
        lengths.sum = 8 * bytes.length →
        ∃ fields,
          word.fields? (placesFrom 0 lengths) = some fields ∧
            reassemble (placesFrom 0 lengths) fields = word.value

section OfBytes

variable
  {order : ByteOrder}
  {size : Nat}
  {address : Address}
  {input : List UInt8}
  {word : Word}
  (read : ofBytes? order size address input = some word)
include read

theorem isNumberOf_of_ofBytes? : word.IsNumberOf order word.bytes := by
  have short : word.bytes.length ≤ maxSize := (heads_of_ofBytes? read).size_le
  have value := (eq_of_ofBytes? read).2.2.2
  have computed := order.toNat_value64 short
  refine
    { bytes_eq := rfl
      value_eq := value.trans (order.value_eq_sum _)
      value_computed := computed.trans value.symm
      field?_eq := word.field?_eq_ite
      field_computed := fun start length => ?_
      reassembled := fun _ positive whole =>
        exists_reassemble_eq positive whole }
  rw [Bits64.toNat_field, computed, ← value, bitField]

/-- The fields of a word without a gap tell its bytes. -/
theorem bytes_eq_of_fields?
    {otherAddress : Address}
    {otherInput : List UInt8}
    {other : Word}
    (readToo : ofBytes? order size otherAddress otherInput = some other)
    {lengths : List Nat}
    (positive : ∀ length ∈ lengths, 0 < length)
    (whole : lengths.sum = 8 * size)
    (same :
      word.fields? (placesFrom 0 lengths) =
        other.fields? (placesFrom 0 lengths)) :
    word.bytes = other.bytes := by
  have sized : word.size = size := size_of_ofBytes? read
  have sizedToo : other.size = size := size_of_ofBytes? readToo
  obtain ⟨fields, given, sum⟩ :=
    @exists_reassemble_eq word _ positive (by rw [whole, width, sized])
  obtain ⟨otherFields, givenToo, otherSum⟩ :=
    @exists_reassemble_eq other _ positive (by rw [whole, width, sizedToo])
  rw [given, givenToo, Option.some.injEq] at same
  apply order.value_inj (sized.trans sizedToo.symm)
  calc order.value word.bytes
      = word.value := (eq_of_ofBytes? read).2.2.2.symm
    _ = reassemble (placesFrom 0 lengths) fields := sum.symm
    _ = reassemble (placesFrom 0 lengths) otherFields := by rw [same]
    _ = other.value := otherSum
    _ = order.value other.bytes := (eq_of_ofBytes? readToo).2.2.2

end OfBytes

/-- One to eight bytes are read as a word, whatever follows them. -/
theorem exists_isNumberOf
    (order : ByteOrder)
    {bytes : List UInt8}
    (positive : 1 ≤ bytes.length)
    (short : bytes.length ≤ maxSize)
    (address : Address)
    (more : List UInt8) :
    ∃ word,
      ofBytes? order bytes.length address (bytes ++ more) = some word ∧
        word.address = address ∧ word.IsNumberOf order bytes := by
  obtain ⟨word, read⟩ :=
    @exists_ofBytes? order bytes.length address (bytes ++ more) positive
      short (by simp)
  have heads := heads_of_ofBytes? read
  have bytes_eq : word.bytes = bytes := by
    rw [heads.bytes_eq, size_of_ofBytes? read, List.take_left]
  exact ⟨word, read, heads.address_eq, bytes_eq ▸ isNumberOf_of_ofBytes? read⟩

end Word

/--
One to eight bytes are read as the word whose value is their number to the
base 256 and whose fields are quotients and remainders of it, also if they are
computed in words of 64 bits. Fields without a gap add up to the value, and
two words of one size that have the same such fields have the same bytes.
-/
theorem words_are_positional :
    (∀ (order : ByteOrder) (bytes more : List UInt8) (address : Address),
        1 ≤ bytes.length → bytes.length ≤ 8 →
          ∃ word,
            Word.ofBytes? order bytes.length address (bytes ++ more) =
                some word ∧
              word.address = address ∧ word.IsNumberOf order bytes) ∧
      ∀ order size leftAddress rightAddress leftInput rightInput left right,
        Word.ofBytes? order size leftAddress leftInput = some left →
          Word.ofBytes? order size rightAddress rightInput = some right →
          ∀ lengths : List Nat,
            (∀ length ∈ lengths, 0 < length) →
              lengths.sum = 8 * size →
              left.fields? (placesFrom 0 lengths) =
                right.fields? (placesFrom 0 lengths) →
              left.bytes = right.bytes := by
  refine ⟨?_, ?_⟩
  · intro order bytes more address positive short
    exact Word.exists_isNumberOf order positive short address more
  · intro order size _ _ _ _ left right read readToo lengths positive whole
      same
    exact Word.bytes_eq_of_fields? read readToo positive whole same

/--
Three bytes whose first one counts most, and two bytes whose first one counts
least, read at two addresses and cut into fields of four and twelve bits.
-/
theorem words_are_positional_in_both_orders :
    (∃ word,
        Word.ofBytes? .big 3 0x1000 [0x12, 0x34, 0x56] = some word ∧
          word.value = 0x123456 ∧
          word.IsNumberOf .big [0x12, 0x34, 0x56]) ∧
      ∃ left right,
        Word.ofBytes? .little 2 0 [0x34, 0x12] = some left ∧
          Word.ofBytes? .little 2 8 [0x34, 0x12, 0x56] = some right ∧
          left.fields? (placesFrom 0 [4, 12]) = some [0x4, 0x123] ∧
          reassemble (placesFrom 0 [4, 12]) [0x4, 0x123] = 0x1234 ∧
          left.bytes = right.bytes := by
  constructor
  · obtain ⟨word, read, -, number⟩ :=
      words_are_positional.1 .big [0x12, 0x34, 0x56] [] 0x1000 (by decide)
        (by decide)
    exact ⟨word, read, number.value_eq.trans (by decide), number⟩
  · obtain ⟨left, right, read, readToo, fields, fieldsToo⟩ :
        ∃ left right,
          Word.ofBytes? .little 2 0 [0x34, 0x12] = some left ∧
            Word.ofBytes? .little 2 8 [0x34, 0x12, 0x56] = some right ∧
            left.fields? (placesFrom 0 [4, 12]) = some [0x4, 0x123] ∧
            right.fields? (placesFrom 0 [4, 12]) = some [0x4, 0x123] :=
      ⟨_, _, rfl, rfl, by decide, by decide⟩
    refine ⟨left, right, read, readToo, fields, by decide, ?_⟩
    exact words_are_positional.2 .little 2 0 8 _ _ left right read readToo
      [4, 12] (by decide) (by decide) (fields.trans fieldsToo.symm)

end MachineCode
