import MachineCode.Bits
import Mathlib.Algebra.Group.Int.Defs
import Mathlib.Algebra.GroupWithZero.Nat

/-!
# Words as runs of fields

A word is put together from fields that stand next to each other (`join`), and
a field of the result is a field of one of its parts. A word is the run of its
own fields (`join_cut`).

An immediate that is scattered over a word is gathered in pieces whose targets
are adjacent, so it is a run of fields as well (`gather_eq_join`). The signed
reading of a field and the two's complement pattern undo each other on the
integers that the field can hold.
-/

namespace MachineCode

/-! ## Fields -/

theorem bitField_zero_of_lt {word length : Nat} (small : word < 2 ^ length) :
    bitField word 0 length = word := by
  rw [bitField, Nat.pow_zero, Nat.div_one, Nat.mod_eq_of_lt small]

/-- The lowest bit of a field, and the others. -/
theorem bitField_add_two (word start length : Nat) :
    bitField word start (length + 2) =
      bitField word start 1 + 2 * bitField word (start + 1) (length + 1) := by
  have quotient : word / 2 ^ (start + 1) = word / 2 ^ start / 2 := by
    rw [Nat.pow_succ, Nat.div_div_eq_div_mul]
  rw [bitField, bitField, bitField, quotient, Nat.pow_one, Nat.pow_succ',
    Nat.mod_mul]

/-- A highest bit that is zero does not count. -/
theorem bitField_succ_of_eq_zero
    {word start length : Nat}
    (zero : bitField word (start + length) 1 = 0) :
    bitField word start (length + 1) = bitField word start length := by
  have quotient :
      word / 2 ^ (start + length) = word / 2 ^ start / 2 ^ length := by
    rw [Nat.pow_add, Nat.div_div_eq_div_mul]
  rw [bitField, quotient, Nat.pow_one] at zero
  rw [bitField, bitField, Nat.pow_succ, Nat.mod_mul, zero, Nat.mul_zero,
    Nat.add_zero]

/-- A field of a field. -/
theorem bitField_bitField
    {word start length innerStart innerLength : Nat}
    (inside : innerStart + innerLength ≤ length) :
    bitField (bitField word start length) innerStart innerLength =
      bitField word (start + innerStart) innerLength := by
  apply Nat.eq_of_testBit_eq
  intro place
  simp only [testBit_bitField]
  by_cases small : place < innerLength
  · have within : innerStart + place < length := by omega
    simp [small, within, Nat.add_assoc]
  · simp [small]

/-- A number that is a multiple of a power is its own field above it. -/
theorem two_pow_mul_bitField
    {word start length : Nat}
    (aligned : 2 ^ start ∣ word)
    (small : word < 2 ^ (start + length)) :
    2 ^ start * bitField word start length = word := by
  have quotient : word / 2 ^ start < 2 ^ length := by
    rw [Nat.div_lt_iff_lt_mul (Nat.two_pow_pos start), ← Nat.pow_add,
      Nat.add_comm]
    exact small
  rw [bitField, Nat.mod_eq_of_lt quotient, Nat.mul_div_cancel' aligned]

/-- A field of a number that is moved upwards. -/
theorem bitField_two_pow_mul
    {word shift start length : Nat}
    (above : shift ≤ start) :
    bitField (2 ^ shift * word) start length =
      bitField word (start - shift) length := by
  apply Nat.eq_of_testBit_eq
  intro place
  have reach : shift ≤ start + place := by omega
  have same : start + place - shift = start - shift + place := by omega
  simp [testBit_bitField, Nat.testBit_two_pow_mul, reach, same]

/-! ## Runs of fields -/

/-- The word of fields, each with its length, from the lowest one on. -/
def join : List (Nat × Nat) → Nat
  | [] => 0
  | (length, value) :: rest => value % 2 ^ length + 2 ^ length * join rest

theorem testBit_join_cons
    (length value : Nat)
    (rest : List (Nat × Nat))
    (place : Nat) :
    (join ((length, value) :: rest)).testBit place =
      if place < length then value.testBit place
      else (join rest).testBit (place - length) := by
  have small := Nat.mod_lt value (Nat.two_pow_pos length)
  rw [join, Nat.add_comm, Nat.testBit_two_pow_mul_add _ small]
  split
  · next inside => simp [Nat.testBit_mod_two_pow, inside]
  · rfl

/-- A field inside the lowest part. -/
theorem bitField_join_inside
    {length value start inner : Nat}
    (rest : List (Nat × Nat))
    (inside : start + inner ≤ length) :
    bitField (join ((length, value) :: rest)) start inner =
      bitField value start inner := by
  apply Nat.eq_of_testBit_eq
  intro place
  simp only [testBit_bitField, testBit_join_cons]
  by_cases small : place < inner
  · have within : start + place < length := by omega
    simp [small, within]
  · simp [small]

/-- A field behind the lowest part. -/
theorem bitField_join_behind
    {length value start inner : Nat}
    (rest : List (Nat × Nat))
    (behind : length ≤ start) :
    bitField (join ((length, value) :: rest)) start inner =
      bitField (join rest) (start - length) inner := by
  apply Nat.eq_of_testBit_eq
  intro place
  have outside : ¬ start + place < length := by omega
  have same : start + place - length = start - length + place := by omega
  simp [testBit_bitField, testBit_join_cons, outside, same]

/-- The fields of a word from a position on. -/
def cut (word : Nat) : (start : Nat) → List Nat → List (Nat × Nat)
  | _, [] => []
  | start, length :: lengths =>
    (length, bitField word start length) :: cut word (start + length) lengths

/-- The fields of a word make up the word. -/
theorem join_cut (word start : Nat) (lengths : List Nat) :
    join (cut word start lengths) = bitField word start lengths.sum := by
  induction lengths generalizing start with
  | nil => simp [cut, join, bitField, Nat.mod_one]
  | cons length lengths induction =>
      apply Nat.eq_of_testBit_eq
      intro place
      rw [cut, testBit_join_cons, induction, List.sum_cons]
      simp only [testBit_bitField]
      by_cases inside : place < length
      · have within : place < length + lengths.sum := by omega
        simp [inside, within]
      · have same : start + length + (place - length) = start + place := by
          omega
        have bound :
            place - length < lengths.sum ↔ place < length + lengths.sum := by
          omega
        simp [inside, same, bound]

/-- Behind the lowest part, the fields are those of the other parts. -/
theorem cut_join_behind
    (length value : Nat)
    (rest : List (Nat × Nat))
    (start : Nat)
    (lengths : List Nat) :
    cut (join ((length, value) :: rest)) (length + start) lengths =
      cut (join rest) start lengths := by
  induction lengths generalizing start with
  | nil => rfl
  | cons inner lengths induction =>
      rw [cut, cut, bitField_join_behind rest (Nat.le_add_right ..),
        Nat.add_sub_cancel_left, Nat.add_assoc, induction]

/-- The fields of a word are the parts that it was made from. -/
theorem cut_join
    {parts : List (Nat × Nat)}
    (small : ∀ part ∈ parts, part.2 < 2 ^ part.1) :
    cut (join parts) 0 (parts.map Prod.fst) = parts := by
  induction parts with
  | nil => rfl
  | cons part parts induction =>
      rcases part with ⟨length, value⟩
      rw [List.forall_mem_cons] at small
      have behind := cut_join_behind length value parts 0
        (parts.map Prod.fst)
      rw [Nat.add_zero, induction small.2] at behind
      rw [List.map_cons, cut, Nat.zero_add, behind,
        bitField_join_inside parts (by omega), bitField_zero_of_lt small.1]

theorem join_lt (parts : List (Nat × Nat)) :
    join parts < 2 ^ (parts.map Prod.fst).sum := by
  induction parts with
  | nil => simp [join]
  | cons part parts induction =>
      rcases part with ⟨length, value⟩
      have small := Nat.mod_lt value (Nat.two_pow_pos length)
      rw [join, List.map_cons, List.sum_cons, Nat.pow_add]
      calc value % 2 ^ length + 2 ^ length * join parts
          < 2 ^ length + 2 ^ length * join parts := by omega
        _ = 2 ^ length * (join parts + 1) := by rw [Nat.mul_add_one]; omega
        _ ≤ 2 ^ length * 2 ^ (parts.map Prod.fst).sum :=
            Nat.mul_le_mul_left _ induction

/-! ## Gathered immediates -/

/-- Whether the targets of the pieces follow each other from `start` on. -/
def BitPiece.Adjacent : (start : Nat) → List BitPiece → Prop
  | _, [] => True
  | start, piece :: pieces =>
    piece.target = start ∧ Adjacent (start + piece.length) pieces

instance BitPiece.decidableAdjacent :
    (start : Nat) → (pieces : List BitPiece) →
      Decidable (BitPiece.Adjacent start pieces)
  | _, [] => .isTrue trivial
  | start, piece :: pieces =>
    have := decidableAdjacent (start + piece.length) pieces
    inferInstanceAs (Decidable (_ ∧ _))

/-- The fields of a word that pieces move, in the order of their targets. -/
def BitPiece.fields (word : Nat) (pieces : List BitPiece) :
    List (Nat × Nat) :=
  pieces.map fun piece =>
    (piece.length, bitField word piece.source piece.length)

theorem BitPiece.join_fields_nil (word : Nat) :
    join (BitPiece.fields word []) = 0 :=
  rfl

theorem BitPiece.join_fields_cons
    (word : Nat)
    (piece : BitPiece)
    (pieces : List BitPiece) :
    join (BitPiece.fields word (piece :: pieces)) =
      bitField word piece.source piece.length +
        2 ^ piece.length * join (BitPiece.fields word pieces) := by
  rw [fields, List.map_cons, join, Nat.mod_eq_of_lt (bitField_lt ..), fields]

theorem gather_foldl
    (word : Nat)
    (pieces : List BitPiece)
    (start collected : Nat)
    (adjacent : BitPiece.Adjacent start pieces)
    (fits : start + (pieces.map BitPiece.length).sum ≤ 64) :
    pieces.foldl (fun collected piece => collected ||| piece.extract word)
        collected =
      collected ||| 2 ^ start * join (BitPiece.fields word pieces) := by
  induction pieces generalizing start collected with
  | nil => simp [BitPiece.fields, join]
  | cons piece pieces induction =>
      rcases adjacent with ⟨rfl, adjacent⟩
      rw [List.map_cons, List.sum_cons] at fits
      have small := bitField_lt word piece.source piece.length
      have moved :
          bitField word piece.source piece.length * 2 ^ piece.target <
            2 ^ (piece.target + piece.length) := by
        rw [Nat.pow_add, Nat.mul_comm]
        exact Nat.mul_lt_mul_of_pos_left small (Nat.two_pow_pos _)
      have inside : 2 ^ (piece.target + piece.length) ≤ 2 ^ 64 :=
        Nat.pow_le_pow_right (by decide) (by omega)
      have extracted :
          piece.extract word =
            bitField word piece.source piece.length * 2 ^ piece.target :=
        Nat.mod_eq_of_lt (by omega)
      have split :
          2 ^ piece.target * join (BitPiece.fields word (piece :: pieces)) =
            2 ^ (piece.target + piece.length) *
                join (BitPiece.fields word pieces) |||
              bitField word piece.source piece.length * 2 ^ piece.target := by
        rw [← Nat.two_pow_add_eq_or_of_lt moved, BitPiece.join_fields_cons,
          Nat.mul_add, Nat.pow_add, Nat.mul_assoc, Nat.add_comm,
          Nat.mul_comm (bitField ..)]
      rw [List.foldl_cons, induction _ _ adjacent (by omega), extracted,
        split, Nat.or_assoc, Nat.or_comm (2 ^ _ * _)]

/-- An immediate whose pieces are adjacent is a run of fields. -/
theorem gather_eq_join
    {word start : Nat}
    {pieces : List BitPiece}
    (adjacent : BitPiece.Adjacent start pieces)
    (fits : start + (pieces.map BitPiece.length).sum ≤ 64) :
    gather word pieces = 2 ^ start * join (BitPiece.fields word pieces) := by
  rw [gather, gather_foldl word pieces start 0 adjacent fits, Nat.zero_or]

/-- A piece whose target is known stands there in the immediate. -/
theorem BitPiece.bitField_join_fields
    {word : Nat}
    {piece : BitPiece}
    {pieces : List BitPiece}
    {start : Nat}
    (adjacent : BitPiece.Adjacent start pieces)
    (member : piece ∈ pieces) :
    start ≤ piece.target ∧
      bitField (join (BitPiece.fields word pieces)) (piece.target - start)
          piece.length =
        bitField word piece.source piece.length := by
  induction pieces generalizing start with
  | nil => cases member
  | cons first pieces induction =>
      rcases adjacent with ⟨rfl, adjacent⟩
      rw [BitPiece.fields, List.map_cons, ← BitPiece.fields]
      rcases List.mem_cons.mp member with rfl | member
      · refine ⟨Nat.le_refl _, ?_⟩
        rw [Nat.sub_self, bitField_join_inside _ (by omega),
          bitField_bitField (by omega), Nat.add_zero]
      · rcases induction adjacent member with ⟨above, same⟩
        refine ⟨by omega, ?_⟩
        rw [bitField_join_behind _ (by omega), Nat.sub_sub, same]

/-- Each piece of an immediate stands at its target. -/
theorem bitField_gather
    {word start : Nat}
    {pieces : List BitPiece}
    {piece : BitPiece}
    (adjacent : BitPiece.Adjacent start pieces)
    (fits : start + (pieces.map BitPiece.length).sum ≤ 64)
    (member : piece ∈ pieces) :
    bitField (gather word pieces) piece.target piece.length =
      bitField word piece.source piece.length := by
  obtain ⟨above, same⟩ :=
    @BitPiece.bitField_join_fields word piece pieces start adjacent member
  rw [gather_eq_join adjacent fits, bitField_two_pow_mul above, same]

theorem gather_lt
    {word start : Nat}
    {pieces : List BitPiece}
    (adjacent : BitPiece.Adjacent start pieces)
    (fits : start + (pieces.map BitPiece.length).sum ≤ 64) :
    gather word pieces < 2 ^ (start + (pieces.map BitPiece.length).sum) := by
  have small := join_lt (BitPiece.fields word pieces)
  have lengths :
      (BitPiece.fields word pieces).map Prod.fst =
        pieces.map BitPiece.length := by
    rw [BitPiece.fields, List.map_map]
    rfl
  rw [lengths] at small
  rw [gather_eq_join adjacent fits, Nat.pow_add]
  exact Nat.mul_lt_mul_of_pos_left small (Nat.two_pow_pos start)

/-- A gathered immediate is aligned to its lowest target. -/
theorem two_pow_dvd_gather
    {word start : Nat}
    {pieces : List BitPiece}
    (adjacent : BitPiece.Adjacent start pieces)
    (fits : start + (pieces.map BitPiece.length).sum ≤ 64) :
    2 ^ start ∣ gather word pieces := by
  rw [gather_eq_join adjacent fits]
  exact Nat.dvd_mul_right ..

/-- A number is gathered from a word whose pieces are the fields of it. -/
theorem gather_eq_of_fields
    {word number start : Nat}
    {pieces : List BitPiece}
    (adjacent : BitPiece.Adjacent start pieces)
    (fits : start + (pieces.map BitPiece.length).sum ≤ 64)
    (aligned : 2 ^ start ∣ number)
    (small : number < 2 ^ (start + (pieces.map BitPiece.length).sum))
    (same :
      ∀ piece ∈ pieces,
        bitField word piece.source piece.length =
          bitField number piece.target piece.length) :
    gather word pieces = number := by
  have fields :
      BitPiece.fields word pieces =
        cut number start (pieces.map BitPiece.length) := by
    clear aligned small fits
    induction pieces generalizing start with
    | nil => rfl
    | cons piece pieces induction =>
        rcases adjacent with ⟨rfl, adjacent⟩
        rw [List.forall_mem_cons] at same
        rw [BitPiece.fields, List.map_cons, ← BitPiece.fields, List.map_cons,
          cut, same.1, induction adjacent same.2]
  rw [gather_eq_join adjacent fits, fields, join_cut,
    two_pow_mul_bitField aligned small]

/-! ## Signed fields -/

theorem signExtend_eq_bmod {value bits : Nat} (narrow : bits ≤ 64) :
    signExtend value bits = Int.bmod value (2 ^ bits) := by
  rw [signExtend, Nat.min_eq_left narrow]

/-- The pattern of a signed reading is the field that is read. -/
theorem twosComplement_signExtend {value bits : Nat} (narrow : bits ≤ 64) :
    twosComplement (signExtend value bits) bits = value % 2 ^ bits := by
  rw [signExtend_eq_bmod narrow, twosComplement]
  have power : ((2 ^ bits : Nat) : Int) = 2 ^ bits := by simp
  rw [← power, Int.bmod_emod, ← Int.natCast_emod, Int.toNat_natCast]

theorem twosComplement_signExtend_of_lt
    {value bits : Nat}
    (narrow : bits ≤ 64)
    (small : value < 2 ^ bits) :
    twosComplement (signExtend value bits) bits = value := by
  rw [twosComplement_signExtend narrow, Nat.mod_eq_of_lt small]

/-- The signed reading of a pattern is the integer, if the field holds it. -/
theorem signExtend_twosComplement
    {value : Int}
    {bits : Nat}
    (narrow : bits + 1 ≤ 64)
    (low : -2 ^ bits ≤ value)
    (high : value < 2 ^ bits) :
    signExtend (twosComplement value (bits + 1)) (bits + 1) = value := by
  have power : ((2 ^ (bits + 1) : Nat) : Int) = 2 ^ (bits + 1) := by simp
  have double : (2 : Int) ^ (bits + 1) = 2 ^ bits * 2 := Int.pow_succ 2 bits
  have positive : (0 : Int) < 2 ^ (bits + 1) := Int.pow_pos (by decide)
  rw [signExtend_eq_bmod narrow, twosComplement,
    Int.toNat_of_nonneg (Int.emod_nonneg _ (by omega)), ← power,
    Int.emod_bmod]
  exact Int.bmod_eq_of_le (by rw [power]; omega) (by rw [power]; omega)

/-- A signed reading lies in the range of its field, and of a wider one. -/
theorem signExtend_bounds
    {value bits limit : Nat}
    (narrow : bits ≤ limit + 1)
    (inside : limit < 64) :
    -2 ^ limit ≤ signExtend value bits ∧
      signExtend value bits < 2 ^ limit := by
  have positive : 0 < 2 ^ bits := Nat.two_pow_pos bits
  have low := @Int.le_bmod value (2 ^ bits) positive
  have high := @Int.bmod_lt value (2 ^ bits) positive
  have wide : 2 ^ bits ≤ 2 * 2 ^ limit := by
    rw [← Nat.pow_succ']
    exact Nat.pow_le_pow_right (by decide) narrow
  have power : ((2 ^ limit : Nat) : Int) = 2 ^ limit := by simp
  rw [signExtend_eq_bmod (by omega), ← power]
  omega

/-- The signed reading of an even number is even. -/
theorem two_dvd_signExtend
    {value bits : Nat}
    (narrow : bits + 1 ≤ 64)
    (even : 2 ∣ value) :
    (2 : Int) ∣ signExtend value (bits + 1) := by
  have power : (2 : Int) ∣ (2 ^ (bits + 1) : Nat) :=
    Int.natCast_dvd_natCast.mpr ⟨2 ^ bits, Nat.pow_succ'⟩
  rw [signExtend_eq_bmod narrow, Int.bmod_eq_self_sub_mul_bdiv]
  exact Int.dvd_sub (Int.natCast_dvd_natCast.mpr even)
    (Int.dvd_trans power (Int.dvd_mul_right ..))

theorem twosComplement_lt (value : Int) (bits : Nat) :
    twosComplement value bits < 2 ^ bits := by
  have positive : (0 : Int) < 2 ^ bits := Int.pow_pos (by decide)
  have small := Int.emod_lt_of_pos value positive
  have nonneg := Int.emod_nonneg value (Int.ne_of_gt positive)
  rw [twosComplement, Int.toNat_lt nonneg]
  simpa using small

/-- The complement of the complement, within a number of bits. -/
theorem twosComplement_complement
    {value bits : Nat}
    (small : value < 2 ^ bits) :
    twosComplement (-1 - Int.bmod (-1 - value) (2 ^ bits)) bits = value := by
  have power : (2 : Int) ^ bits = (2 ^ bits : Nat) := by simp
  have twice : -1 - (-1 - (value : Int)) = value := by omega
  have same :
      (-1 - Int.bmod (-1 - value) (2 ^ bits)) % ((2 ^ bits : Nat) : Int) =
        value := by
    rw [Int.sub_emod, Int.bmod_emod, ← Int.sub_emod, twice]
    exact Int.emod_eq_of_lt (by omega) (by omega)
  rw [twosComplement, power, same, Int.toNat_natCast]

/-- A small number is its own remainder. -/
theorem natCast_emod_two_pow
    {value bits : Nat}
    (small : value < 2 ^ bits) :
    (value : Int) % 2 ^ bits = value := by
  exact_mod_cast Nat.mod_eq_of_lt small

/-- The complement, read without its sign. -/
theorem bmod_complement_emod
    {value bits : Nat}
    (small : value < 2 ^ bits) :
    Int.bmod (-1 - value) (2 ^ bits) % 2 ^ bits =
      (2 ^ bits - 1 - value : Nat) := by
  have power : (2 : Int) ^ bits = (2 ^ bits : Nat) := by simp
  have shifted :
      -1 - (value : Int) =
        (2 ^ bits - 1 - value : Nat) - ((2 ^ bits : Nat) : Int) := by
    omega
  rw [power, Int.bmod_emod, shifted, Int.sub_emod_right]
  exact Int.emod_eq_of_lt (by omega) (by omega)

/-- The pattern of a multiple of a power is a multiple of it. -/
theorem two_pow_dvd_twosComplement
    {value : Int}
    {start bits : Nat}
    (within : start ≤ bits)
    (aligned : 2 ^ start ∣ value) :
    2 ^ start ∣ twosComplement value bits := by
  have positive : (0 : Int) < 2 ^ bits := Int.pow_pos (by decide)
  have nonneg := Int.emod_nonneg value (Int.ne_of_gt positive)
  have cast : ((2 ^ start : Nat) : Int) = 2 ^ start := by simp
  have power : (2 : Int) ^ start ∣ 2 ^ bits := by
    exact_mod_cast Nat.pow_dvd_pow 2 within
  rw [← Int.natCast_dvd_natCast, cast, twosComplement,
    Int.toNat_of_nonneg nonneg, Int.emod_def]
  exact Int.dvd_sub aligned (Int.dvd_trans power (Int.dvd_mul_right ..))

/-- The pattern of an even number is even. -/
theorem two_dvd_twosComplement
    {value : Int}
    {bits : Nat}
    (even : 2 ∣ value) :
    2 ∣ twosComplement value (bits + 1) :=
  @two_pow_dvd_twosComplement value 1 (bits + 1) (Nat.succ_pos bits) even

/-- An offset that fits 64 bits is the product of its field and its unit. -/
theorem relativeOffset_eq_mul
    {raw bits limit : Nat}
    {scale : Int}
    (narrow : bits ≤ limit + 1)
    (inside : limit < 64)
    (positive : 0 < scale)
    (small : 2 ^ limit * scale ≤ 2 ^ 63) :
    relativeOffset raw bits scale = signExtend raw bits * scale := by
  have bounds := @signExtend_bounds raw bits limit narrow inside
  have low := Int.mul_le_mul_of_nonneg_right bounds.1 (Int.le_of_lt positive)
  have high := Int.mul_lt_mul_of_pos_right bounds.2 positive
  rw [Int.neg_mul] at low
  rw [relativeOffset, wrapSigned64]
  exact Int.bmod_eq_of_le (by omega) (by omega)

/-- An offset that is not scaled is the signed reading of its field. -/
theorem relativeOffset_one {raw bits : Nat} (narrow : bits ≤ 64) :
    relativeOffset raw bits 1 = signExtend raw bits := by
  rw [@relativeOffset_eq_mul raw bits 63 1 narrow (by decide) (by decide)
    (by decide), Int.mul_one]

end MachineCode
