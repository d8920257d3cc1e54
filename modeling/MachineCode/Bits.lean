/-!
# Bit fields

Words are natural numbers here and addresses are 64-bit words. This module
reads a field of a word, gives a field its sign, collects an immediate whose
bits are scattered over a word, and forms the target of a relative branch.

`signExtend value bits` is the only integer in `[-2^(bits-1), 2^(bits-1))`
that agrees with `value` modulo `2^bits`.
-/

namespace MachineCode

-- Powers are the core library's in the modules that decode, whatever other
-- powers are known where such a module is read.
attribute [local instance (2000)] instPowNat

/-- A position in a 64-bit address space. Sums wrap around. -/
abbrev Address :=
  BitVec 64

namespace Address

/-- The address reached from `base` after `distance` bytes. -/
def advance (base : Address) (distance : Nat) : Address :=
  base + BitVec.ofNat 64 distance

theorem advance_zero (base : Address) : base.advance 0 = base :=
  BitVec.add_zero base

theorem advance_advance (base : Address) (first second : Nat) :
    (base.advance first).advance second = base.advance (first + second) := by
  rw [advance, advance, advance, BitVec.add_assoc, BitVec.ofNat_add]

/-- The address at a signed distance from `base`. -/
def displace (base : Address) (distance : Int) : Address :=
  base + BitVec.ofInt 64 distance

end Address

/-- The `length` bits of `word` from bit `start` upwards. -/
def bitField (word start length : Nat) : Nat :=
  word / 2 ^ start % 2 ^ length

theorem bitField_lt (word start length : Nat) :
    bitField word start length < 2 ^ length :=
  Nat.mod_lt _ (Nat.two_pow_pos length)

/-- The bits of a field are bits of the word. -/
theorem testBit_bitField (word start length place : Nat) :
    (bitField word start length).testBit place =
      (decide (place < length) && word.testBit (start + place)) := by
  rw [bitField, Nat.testBit_mod_two_pow, Nat.testBit_div_two_pow,
    Nat.add_comm]

/-- The signed reading of the low `bits` bits; at most 64 bits count. -/
def signExtend (value bits : Nat) : Int :=
  Int.bmod value (2 ^ min bits 64)

/-- The two's complement pattern of an integer in `bits` bits. -/
def twosComplement (value : Int) (bits : Nat) : Nat :=
  (value % 2 ^ bits).toNat

/-- The integer that a pattern of 64 bits stands for. -/
def wrapSigned64 (value : Int) : Int :=
  Int.bmod value (2 ^ (64 : Nat))

/-- A run of bits that is moved from one place to another. -/
structure BitPiece where
  /-- The lowest bit of the run in the word. -/
  source : Nat
  /-- The number of bits. -/
  length : Nat
  /-- The lowest bit of the run in the result. -/
  target : Nat
deriving DecidableEq, Repr

namespace BitPiece

/-- The bits of the piece at their place in a 64-bit result. -/
def extract (piece : BitPiece) (word : Nat) : Nat :=
  bitField word piece.source piece.length * 2 ^ piece.target % 2 ^ (64 : Nat)

end BitPiece

/-- The union of the pieces of a word, each at its own place. -/
def gather (word : Nat) (pieces : List BitPiece) : Nat :=
  pieces.foldl (fun collected piece => collected ||| piece.extract word) 0

/-- The byte offset that a branch field stands for. -/
def relativeOffset (raw bits : Nat) (scale : Int) : Int :=
  wrapSigned64 (signExtend raw bits * scale)

/--
The target of a branch: the offset is added to the address with the bits of
`alignment` cleared.
-/
def relativeTarget
    (raw bits : Nat)
    (scale : Int)
    (address alignment : Address) :
    Address :=
  (address &&& ~~~alignment).displace (relativeOffset raw bits scale)

end MachineCode
