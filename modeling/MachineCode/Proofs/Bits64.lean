import MachineCode.Proofs.Bits
import MachineCode.Word

/-!
# Computing with words of 64 bits

Fields, signs, scattered immediates, distances and the numbers of bytes are
quotients and remainders of natural numbers and integers. They can also be
computed in words of 64 bits, by shifts and masks, with products and sums that
wrap around. The computations are written down here, and each gives the number
that it stands for: no mask is shifted by 64 places, a sign is spread by an
arithmetic shift, and up to eight bytes are collected without loss.
-/

namespace MachineCode.Bits64

/-! ## Fields -/

/-- The lowest `length` bits; from 64 on, all of them. -/
def mask (length : Nat) : BitVec 64 :=
  if 64 ≤ length then BitVec.allOnes 64 else (1#64 <<< length) - 1#64

theorem toNat_mask (length : Nat) :
    (mask length).toNat = 2 ^ min length 64 - 1 := by
  unfold mask
  split
  · next whole => rw [Nat.min_eq_right whole, BitVec.toNat_allOnes]
  · next part =>
    have short : length < 64 := Nat.lt_of_not_le part
    have small : 2 ^ length < 2 ^ 64 :=
      Nat.pow_lt_pow_right (by decide) short
    have positive : 0 < 2 ^ length := Nat.two_pow_pos length
    rw [Nat.min_eq_left (Nat.le_of_lt short), ← BitVec.twoPow_eq,
      BitVec.toNat_sub, BitVec.toNat_twoPow_of_lt short,
      BitVec.toNat_one (by decide)]
    omega

/-- A field, moved to the bottom and masked. -/
def field (word : BitVec 64) (start length : Nat) : BitVec 64 :=
  (word >>> start) &&& mask length

theorem toNat_field (word : BitVec 64) (start length : Nat) :
    (field word start length).toNat =
      bitField word.toNat start length := by
  rw [field, BitVec.toNat_and, toNat_mask, Nat.and_two_pow_sub_one_eq_mod,
    BitVec.toNat_ushiftRight, Nat.shiftRight_eq_div_pow, bitField]
  rcases Nat.le_total length 64 with part | whole
  · rw [Nat.min_eq_left part]
  · have small : word.toNat / 2 ^ start < 2 ^ 64 :=
      Nat.lt_of_le_of_lt (Nat.div_le_self ..) word.isLt
    have wide : 2 ^ 64 ≤ 2 ^ length :=
      Nat.pow_le_pow_right (by decide) whole
    rw [Nat.min_eq_right whole, Nat.mod_eq_of_lt small,
      Nat.mod_eq_of_lt (Nat.lt_of_lt_of_le small wide)]

/-! ## Signs -/

/-- The low bits moved to the top, and back with their sign. -/
def signExtend (value : BitVec 64) (bits : Nat) : BitVec 64 :=
  if bits = 0 then 0
  else if 64 ≤ bits then value
  else (value <<< (64 - bits)).sshiftRight (64 - bits)

/-- Both shifts together repeat the highest of the low bits. -/
theorem shiftLeft_sshiftRight
    (value : BitVec 64)
    {bits : Nat}
    (positive : 0 < bits)
    (short : bits < 64) :
    (value <<< (64 - bits)).sshiftRight (64 - bits) =
      (value.setWidth bits).signExtend 64 := by
  apply BitVec.eq_of_getLsbD_eq
  intro place inside
  have within : ¬ 64 ≤ place := Nat.not_le.mpr inside
  rw [BitVec.getLsbD_sshiftRight, BitVec.getLsbD_signExtend]
  by_cases low : place < bits
  · have reach : 64 - bits + place < 64 := by omega
    simp [inside, low, reach, within]
  · have reach : ¬ 64 - bits + place < 64 := by omega
    have top : 63 - (64 - bits) = bits - 1 := by omega
    have above : ¬ 63 < 64 - bits := by omega
    have last : bits - 1 < bits := by omega
    have lastInside : bits - 1 < 64 := by omega
    simp [inside, low, reach, within, above, last, top,
      BitVec.msb_eq_getLsbD_last, BitVec.getLsbD_eq_getElem lastInside]

theorem toInt_signExtend (value : BitVec 64) (bits : Nat) :
    (signExtend value bits).toInt =
      MachineCode.signExtend value.toNat bits := by
  rw [signExtend, MachineCode.signExtend]
  split
  · next zero =>
    subst zero
    exact (Int.bmod_one _).symm
  next nonzero =>
  split
  · next whole =>
    rw [Nat.min_eq_right whole, BitVec.toInt_eq_toNat_bmod]
  · next part =>
    have short : bits < 64 := Nat.lt_of_not_le part
    rw [shiftLeft_sshiftRight value (Nat.pos_of_ne_zero nonzero) short,
      BitVec.toInt_signExtend_of_le (Nat.le_of_lt short),
      BitVec.toInt_setWidth, Nat.min_eq_left (Nat.le_of_lt short)]

/-! ## Scattered immediates -/

/-- The union of the fields of a word, each moved to its place. -/
def gather (word : BitVec 64) (pieces : List BitPiece) : BitVec 64 :=
  pieces.foldl
    (fun collected piece =>
      collected ||| (field word piece.source piece.length <<< piece.target))
    0

theorem toNat_gather (word : BitVec 64) (pieces : List BitPiece) :
    (gather word pieces).toNat = MachineCode.gather word.toNat pieces := by
  -- The bits that have been collected so far are the same on both sides.
  have step (collected : BitVec 64) :
      (pieces.foldl
          (fun collected piece =>
            collected |||
              (field word piece.source piece.length <<< piece.target))
          collected).toNat =
        pieces.foldl
          (fun collected piece => collected ||| piece.extract word.toNat)
          collected.toNat := by
    induction pieces generalizing collected with
    | nil => rfl
    | cons piece pieces induction =>
        rw [List.foldl_cons, List.foldl_cons, induction, BitVec.toNat_or,
          BitVec.toNat_shiftLeft, toNat_field, Nat.shiftLeft_eq,
          BitPiece.extract]
  exact step 0

/-! ## Distances -/

/-- The product of a signed field and a unit. -/
def offset (raw : BitVec 64) (bits : Nat) (scale : BitVec 64) : BitVec 64 :=
  signExtend raw bits * scale

theorem toInt_offset (raw : BitVec 64) (bits : Nat) (scale : BitVec 64) :
    (offset raw bits scale).toInt =
      relativeOffset raw.toNat bits scale.toInt := by
  rw [offset, BitVec.toInt_mul, toInt_signExtend, relativeOffset,
    wrapSigned64]

/-- The sum of an address, some of its bits cleared, and a distance. -/
def target
    (raw : BitVec 64)
    (bits : Nat)
    (scale address alignment : BitVec 64) :
    BitVec 64 :=
  (address &&& ~~~alignment) + offset raw bits scale

theorem target_eq
    (raw : BitVec 64)
    (bits : Nat)
    (scale address alignment : BitVec 64) :
    target raw bits scale address alignment =
      relativeTarget raw.toNat bits scale.toInt address alignment := by
  rw [target, relativeTarget, Address.displace, ← toInt_offset,
    BitVec.ofInt_toInt]

/-! ## Bytes -/

/-- Bytes that are shifted in one after the other. -/
def ofBytes (bytes : List UInt8) : BitVec 64 :=
  bytes.foldl
    (fun collected byte => (collected <<< 8) ||| BitVec.ofNat 64 byte.toNat)
    0

/-- The byte that is shifted in last is the lowest digit. -/
theorem toNat_ofBytes
    {bytes : List UInt8}
    (short : bytes.length ≤ 8) :
    (ofBytes bytes).toNat = littleEndian bytes.reverse := by
  rw [← bytes.reverse_reverse] at short ⊢
  generalize bytes.reverse = digits at short ⊢
  rw [List.reverse_reverse]
  induction digits with
  | nil => rfl
  | cons byte digits induction =>
      rw [List.length_reverse, List.length_cons] at short
      have small : byte.toNat < 2 ^ 8 := byte.toNat_lt
      have digitsSmall : littleEndian digits < 2 ^ 56 :=
        Nat.lt_of_lt_of_le (littleEndian_lt digits)
          (Nat.pow_le_pow_right (by decide) (by omega))
      rw [ofBytes, List.reverse_cons, List.foldl_append, ← ofBytes,
        List.foldl_cons, List.foldl_nil, BitVec.toNat_or,
        BitVec.toNat_shiftLeft, induction (by simp; omega),
        BitVec.toNat_ofNat, Nat.mod_eq_of_lt (a := byte.toNat) (by omega),
        Nat.shiftLeft_eq, Nat.mod_eq_of_lt (by omega), Nat.mul_comm,
        ← Nat.two_pow_add_eq_or_of_lt small, littleEndian, Nat.add_comm]

end MachineCode.Bits64
