import MachineCode.Proofs.RiscV.Expansion

/-!
# Immediates of compressed instructions

The immediates that the manual's diagrams describe are the ones that the
operand formats gather (`Scattering.value_eq_gather`): both are the same sum
of single bits. So an immediate has the bits of its length, and the offset of
a branch is even.
-/

namespace MachineCode.RiscV.Scattering

/-- The pieces from which the operand formats gather an immediate. -/
def pieces : Scattering → List BitPiece
  | .constant => Immediate.shortConstant
  | .stackAddress => Immediate.stackAddress
  | .stackChange => Immediate.stackChange
  | .word => Immediate.shortWord
  | .double => Immediate.shortDouble
  | .jump => Immediate.shortJump
  | .branch => Immediate.shortBranch
  | .stackLoadWord => Immediate.stackLoadWord
  | .stackLoadDouble => Immediate.stackLoadDouble
  | .stackStoreWord => Immediate.stackStoreWord
  | .stackStoreDouble => Immediate.stackStoreDouble

/-- The lowest bit of an immediate that need not be zero. -/
def start : Scattering → Nat
  | .constant => 0
  | .jump | .branch => 1
  | .stackAddress | .word | .stackLoadWord | .stackStoreWord => 2
  | .double | .stackLoadDouble | .stackStoreDouble => 3
  | .stackChange => 4

theorem adjacent_pieces (scattering : Scattering) :
    BitPiece.Adjacent scattering.start scattering.pieces := by
  cases scattering <;> decide

theorem start_add_sum (scattering : Scattering) :
    scattering.start + (scattering.pieces.map BitPiece.length).sum =
      scattering.bits := by
  cases scattering <;> rfl

theorem bits_le (scattering : Scattering) : scattering.bits ≤ 12 := by
  cases scattering <;> decide

theorem fits_pieces (scattering : Scattering) :
    scattering.start + (scattering.pieces.map BitPiece.length).sum ≤ 64 := by
  rw [start_add_sum]
  exact Nat.le_trans scattering.bits_le (by decide)

/-- The manual's diagram and the pieces make up the same immediate. -/
theorem value_eq_gather (parcel : Nat) (scattering : Scattering) :
    scattering.value parcel = gather parcel scattering.pieces := by
  rw [gather_eq_join scattering.adjacent_pieces scattering.fits_pieces]
  cases scattering <;>
    simp only [value, labels, labelled, pieces, start, Immediate.shortJump,
      Immediate.shortBranch, Immediate.shortConstant, Immediate.stackAddress,
      Immediate.stackChange, Immediate.shortWord, Immediate.shortDouble,
      Immediate.stackLoadWord, Immediate.stackLoadDouble,
      Immediate.stackStoreWord, Immediate.stackStoreDouble, List.map_cons,
      List.map_nil, List.sum_cons, List.sum_nil, BitPiece.join_fields_cons,
      BitPiece.join_fields_nil, bitField_add_two, Nat.reduceAdd,
      Nat.reduceSub] <;>
    omega

theorem value_lt (parcel : Nat) (scattering : Scattering) :
    scattering.value parcel < 2 ^ scattering.bits := by
  rw [value_eq_gather, ← start_add_sum]
  exact gather_lt scattering.adjacent_pieces scattering.fits_pieces

/-- The offset of a jump or branch is even. -/
theorem two_dvd_value
    (parcel : Nat)
    {scattering : Scattering}
    (aligned : scattering.start = 1) :
    2 ∣ scattering.value parcel := by
  have divides :=
    @two_pow_dvd_gather parcel _ _ scattering.adjacent_pieces
      scattering.fits_pieces
  rw [aligned] at divides
  rw [value_eq_gather]
  exact divides

end MachineCode.RiscV.Scattering
