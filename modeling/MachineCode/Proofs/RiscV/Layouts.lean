import MachineCode.Proofs.RiscV.Scattering
import MachineCode.Proofs.Scatter

/-!
# Layouts of immediates

The manual prints above the bits of a word which bit of the immediate stands
there. A word is assembled by putting each bit of a value into its place
(`Layout.assemble`), whatever the rest of the word is. The pieces that the
operand formats gather are separate for each of the fourteen layouts, so they
give back the value, and the offset with its sign (`gathers_what_is_laid_out`).
-/

namespace MachineCode.RiscV

/-- The immediates whose bits are scattered over a word. -/
inductive Layout where
  | jump
  | branch
  | store
  /-- An immediate of a compressed instruction. -/
  | short (scattering : Scattering)
deriving DecidableEq, Repr

namespace Layout

/--
The places of the bits in the immediate, for the bits of the word from a
given one downwards.
-/
def labels : Layout → List (Nat × List Nat)
  | .jump =>
    [(31, [20, 10, 9, 8, 7, 6, 5, 4, 3, 2, 1, 11, 19, 18, 17, 16, 15, 14, 13,
      12])]
  | .branch => [(31, [12, 10, 9, 8, 7, 6, 5]), (11, [4, 3, 2, 1, 11])]
  | .store => [(31, [11, 10, 9, 8, 7, 6, 5]), (11, [4, 3, 2, 1, 0])]
  | .short scattering => scattering.labels

/-- The pieces from which the operand formats gather an immediate. -/
def pieces : Layout → List BitPiece
  | .jump => Immediate.jump
  | .branch => Immediate.branch
  | .store => Immediate.store
  | .short scattering => scattering.pieces

/-- The number of bits of an immediate. -/
def bits : Layout → Nat
  | .jump => 21
  | .branch => 13
  | .store => 12
  | .short scattering => scattering.bits

/-- The lowest bit of an immediate that need not be zero. -/
def start : Layout → Nat
  | .jump | .branch => 1
  | .store => 0
  | .short scattering => scattering.start

/-! ## Words with an immediate -/

/-- One piece for each label, for the bits from `top` downwards. -/
def wired : (top : Nat) → List Nat → List BitPiece
  | _, [] => []
  | top, label :: labels => ⟨top, 1, label⟩ :: wired (top - 1) labels

/-- The bits of the word that the manual labels, one by one. -/
def wires (layout : Layout) : List BitPiece :=
  layout.labels.flatMap fun (top, labels) => wired top labels

/-- The word with each labelled bit set to the bit of the value. -/
def assemble (layout : Layout) (value word : Nat) : Nat :=
  scatter value word layout.wires

/-- Whether an offset has the range and the alignment of the immediate. -/
structure Represents (layout : Layout) (offset : Int) : Prop where
  low : -2 ^ (layout.bits - 1) ≤ offset
  high : offset < 2 ^ (layout.bits - 1)
  aligned : 2 ^ layout.start ∣ offset

/-! ## The tables of pieces -/

section Tables

variable (layout : Layout)

theorem separate_pieces : BitPiece.Separate layout.pieces := by
  cases layout with
  | short scattering => cases scattering <;> decide
  | _ => decide

theorem wires_apart : layout.wires.Pairwise BitPiece.TakesApart := by
  cases layout with
  | short scattering => cases scattering <;> decide
  | _ => decide

/-- A piece moves bits as the manual labels them. -/
theorem mem_wires :
    ∀ piece ∈ layout.pieces, ∀ index < piece.length,
      ⟨piece.source + index, 1, piece.target + index⟩ ∈ layout.wires := by
  cases layout with
  | short scattering => cases scattering <;> decide
  | _ => decide

/-- The pieces leave no gap in the immediate. -/
theorem exists_gives :
    ∀ place < layout.bits, layout.start ≤ place →
      ∃ piece ∈ layout.pieces, piece.Gives place := by
  cases layout with
  | short scattering => cases scattering <;> decide
  | _ => decide

theorem start_le_bits : layout.start ≤ layout.bits := by
  cases layout with
  | short scattering => cases scattering <;> decide
  | _ => decide

theorem bits_pos : 0 < layout.bits := by
  cases layout with
  | short scattering => cases scattering <;> decide
  | _ => decide

theorem bits_le : layout.bits ≤ 64 := by
  cases layout with
  | short scattering => cases scattering <;> decide
  | _ => decide

end Tables

/-! ## Gathering what is laid out -/

section Gather

variable {layout : Layout} {value : Nat}

theorem carries_assemble (word : Nat) :
    BitPiece.Carries layout.pieces value (layout.assemble value word) := by
  intro piece listed index inside
  exact BitPiece.testBit_scatter_source layout.wires_apart
    (layout.mem_wires piece listed index inside) Nat.one_pos value word

theorem covers_of_lt
    (small : value < 2 ^ layout.bits)
    (aligned : 2 ^ layout.start ∣ value) :
    BitPiece.Covers layout.pieces value := by
  intro place set
  refine layout.exists_gives place ?_ ?_
  · by_contra above
    have clear : value.testBit place = false :=
      Nat.testBit_lt_two_pow (Nat.lt_of_lt_of_le small
        (Nat.pow_le_pow_right (by decide) (Nat.le_of_not_lt above)))
    exact Bool.false_ne_true (clear.symm.trans set)
  · rcases aligned with ⟨quotient, rfl⟩
    rw [Nat.testBit_two_pow_mul, Bool.and_eq_true, decide_eq_true_eq] at set
    exact set.1

/-- The value is gathered from the word it was put into. -/
theorem gather_assemble
    (small : value < 2 ^ layout.bits)
    (aligned : 2 ^ layout.start ∣ value)
    (word : Nat) :
    gather (layout.assemble value word) layout.pieces = value :=
  BitPiece.gather_eq_of_carries layout.separate_pieces
    (covers_of_lt small aligned) (carries_assemble word)

/-- As `gather_assemble`, for offsets with a sign. -/
theorem signExtend_gather_assemble
    {offset : Int}
    (represents : layout.Represents offset)
    (word : Nat) :
    signExtend
        (gather (layout.assemble (twosComplement offset layout.bits) word)
          layout.pieces)
        layout.bits =
      offset := by
  have pattern :=
    two_pow_dvd_twosComplement layout.start_le_bits represents.aligned
  have length : layout.bits - 1 + 1 = layout.bits :=
    Nat.sub_add_cancel layout.bits_pos
  have signed :=
    @signExtend_twosComplement offset (layout.bits - 1)
      (length.symm ▸ layout.bits_le) represents.low represents.high
  rw [length] at signed
  rw [gather_assemble (twosComplement_lt ..) pattern, signed]

end Gather

end Layout

/--
Gathering with separate pieces undoes scattering with them. The pieces of
every immediate are separate, and they give back what has been laid out by
the manual's diagram: a value, or an offset with its sign.
-/
theorem gathers_what_is_laid_out :
    (∀ pieces, BitPiece.Separate pieces →
        BitPiece.UndoesScattering pieces) ∧
      ∀ layout : Layout,
        BitPiece.Separate layout.pieces ∧
          (∀ value word, value < 2 ^ layout.bits →
            2 ^ layout.start ∣ value →
              gather (layout.assemble value word) layout.pieces = value) ∧
          ∀ offset word, layout.Represents offset →
            signExtend
                (gather
                  (layout.assemble (twosComplement offset layout.bits) word)
                  layout.pieces)
                layout.bits =
              offset := by
  refine ⟨fun pieces separate => separate.undoesScattering, fun layout => ?_⟩
  refine ⟨layout.separate_pieces, ?_, ?_⟩
  · intro value word small aligned
    exact Layout.gather_assemble small aligned word
  · intro offset word represents
    exact Layout.signExtend_gather_assemble represents word

/--
The offset -4, put into the word of a jump that links and gathered again; and
pieces whose order is not that of their targets.
-/
theorem gathers_what_is_laid_out_backwards :
    Layout.jump.Represents (-4) ∧
      Layout.jump.assemble (twosComplement (-4) 21) 0x000000ef =
        0xffdff0ef ∧
      signExtend (gather 0xffdff0ef Immediate.jump) 21 = -4 ∧
      BitPiece.Separate [⟨11, 1, 4⟩, ⟨2, 1, 5⟩, ⟨3, 3, 1⟩] ∧
      BitPiece.UndoesScattering [⟨11, 1, 4⟩, ⟨2, 1, 5⟩, ⟨3, 3, 1⟩] := by
  have represents : Layout.jump.Represents (-4) :=
    ⟨by decide, by decide, by decide⟩
  have assembled :
      Layout.jump.assemble (twosComplement (-4) 21) 0x000000ef =
        0xffdff0ef := by
    decide
  have separate :
      BitPiece.Separate [⟨11, 1, 4⟩, ⟨2, 1, 5⟩, ⟨3, 3, 1⟩] := by
    decide
  have offset :=
    (gathers_what_is_laid_out.2 .jump).2.2 (-4) 0x000000ef represents
  have fixed : Layout.jump.bits = 21 := rfl
  rw [fixed, assembled] at offset
  exact ⟨represents, assembled, offset, separate,
    gathers_what_is_laid_out.1 _ separate⟩

end MachineCode.RiscV
