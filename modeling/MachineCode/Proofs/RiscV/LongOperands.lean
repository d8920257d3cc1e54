import MachineCode.Proofs.RiscV.Scattering

/-!
# Operands of expansions

The parts of a parcel make up operands in the range of an encoding, if they
are of the kinds that the encoding takes (`Encoding.fits_of_accepts`): three
or five bits name a register, an immediate of a compressed instruction has at
most twelve bits, and the offset of a branch is even.
-/

namespace MachineCode.RiscV

namespace Named

/-- Whether the register is one of a bank. -/
def isIn (bank : Bank) : Named → Bool
  | .fixed number => bank = .integer && number < 32
  | .full own _ | .short own _ => own = bank

theorem number_lt
    {bank : Bank}
    {named : Named}
    (inside : named.isIn bank)
    (parcel : Nat) :
    named.number parcel < 32 := by
  cases named with
  | fixed number =>
      rw [isIn, Bool.and_eq_true, decide_eq_true_eq, decide_eq_true_eq]
        at inside
      exact inside.2
  | full own start => exact bitField_lt parcel start 5
  | short own start =>
      have small : bitField parcel start 3 < 8 := bitField_lt parcel start 3
      rw [number]
      omega

theorem register_eq
    {bank : Bank}
    {named : Named}
    (inside : named.isIn bank)
    (xlen : Xlen)
    (parcel : Nat) :
    named.register xlen parcel =
      bank.register xlen (named.number parcel) := by
  have same : named.bank = bank := by
    cases named with
    | fixed number =>
        rw [isIn, Bool.and_eq_true, decide_eq_true_eq] at inside
        exact inside.1.symm
    | full own start | short own start => exact of_decide_eq_true inside
  rw [register, same]

end Named

namespace Encoding

/-- Whether an encoding with a constant takes a part as the constant. -/
def takesConstant : Part → Bool
  | .constant _ | .noConstant => true
  | .distance scattering => scattering.bits ≤ 11
  | _ => false

/-- Whether the parts are of the kinds that an encoding takes. -/
def accepts (xlen : Xlen) : Encoding → List Part → Bool
  | .upper _, [.register destination, .upper] => destination.isIn .integer
  | .jump _, [.register link, .target scattering] =>
    link.isIn .integer && scattering.start = 1
  | .branch _, [.register first, .register second, .target scattering] =>
    first.isIn .integer && second.isIn .integer && scattering.start = 1
  | .load bank _ _ size,
      [.register data, .memory base scattering accessed]
  | .store bank _ _ size,
      [.register data, .memory base scattering accessed] =>
    data.isIn bank && base.isIn .integer && scattering.bits ≤ 11 &&
      size = accessed
  | .constant _ _, [.register destination, .register source, last] =>
    destination.isIn .integer && source.isIn .integer && takesConstant last
  | .shift bits _ _ _, [.register destination, .register source, .amount] =>
    destination.isIn .integer && source.isIn .integer &&
      bits = xlen.shiftBits
  | .registers _ _ _,
      [.register destination, .register first, .register second] =>
    destination.isIn .integer && first.isIn .integer &&
      second.isIn .integer
  | .bare _, [] => true
  | _, _ => false

/-- The displacement of an access has no sign. -/
theorem displacement_bounds
    (parcel : Nat)
    {scattering : Scattering}
    (narrow : scattering.bits ≤ 11) :
    -2 ^ 11 ≤ (scattering.value parcel : Int) ∧
      (scattering.value parcel : Int) < 2 ^ 11 := by
  have small : scattering.value parcel < 2 ^ 11 :=
    Nat.lt_of_lt_of_le (scattering.value_lt parcel)
      (Nat.pow_le_pow_right (by decide) narrow)
  exact ⟨by omega, by omega⟩

theorem exists_constant_of_takesConstant
    {part : Part}
    (taken : takesConstant part)
    (xlen : Xlen)
    (address : Address)
    (parcel : Nat) :
    ∃ constant : Int,
      part.operand xlen address parcel = .signed constant 12 ∧
        -2 ^ 11 ≤ constant ∧ constant < 2 ^ 11 := by
  cases part with
  | constant scattering =>
      exact ⟨_, rfl, signExtend_bounds scattering.bits_le (by decide)⟩
  | noConstant => exact ⟨0, rfl, by decide, by decide⟩
  | distance scattering =>
      exact ⟨_, rfl, displacement_bounds parcel (of_decide_eq_true taken)⟩
  | register | amount | upper | target | memory => cases taken

/-- The offset of a jump or branch is even, and in range. -/
theorem offset_bounds
    (parcel : Nat)
    {scattering : Scattering}
    (aligned : scattering.start = 1) :
    (2 : Int) ∣ signExtend (scattering.value parcel) scattering.bits ∧
      -2 ^ 12 ≤ signExtend (scattering.value parcel) scattering.bits ∧
      signExtend (scattering.value parcel) scattering.bits < 2 ^ 12 := by
  have narrow := scattering.bits_le
  have positive : 1 ≤ scattering.bits := by cases scattering <;> decide
  have even :=
    @two_dvd_signExtend (scattering.value parcel) (scattering.bits - 1)
      (by omega) (scattering.two_dvd_value parcel aligned)
  rw [Nat.sub_add_cancel positive] at even
  exact ⟨even, signExtend_bounds (by omega) (by decide)⟩

/-- Parts of the right kinds make up operands in the range of an encoding. -/
theorem fits_of_accepts
    {xlen : Xlen}
    {encoding : Encoding}
    {parts : List Part}
    (accepted : encoding.accepts xlen parts)
    (address : Address)
    {parcel : Nat}
    (amountSmall :
      .amount ∈ parts →
        Scattering.constant.value parcel < 2 ^ xlen.shiftBits) :
    encoding.Fits xlen address
      (parts.map (Part.operand xlen address parcel)) none := by
  unfold accepts at accepted
  split at accepted
  · next major destination =>
    have small := Named.number_lt accepted parcel
    rw [List.map_cons, List.map_cons, List.map_nil, Part.operand,
      Named.register_eq accepted]
    exact .upper small (twosComplement_lt _ 20)
  · next major link scattering =>
    rw [Bool.and_eq_true, decide_eq_true_eq] at accepted
    rcases accepted with ⟨linkIn, aligned⟩
    rcases offset_bounds parcel aligned with ⟨even, low, high⟩
    rw [List.map_cons, List.map_cons, List.map_nil, Part.operand,
      Named.register_eq linkIn]
    exact .jump (Named.number_lt linkIn parcel) even (by omega) (by omega)
  · next funct3 first second scattering =>
    rw [Bool.and_eq_true, Bool.and_eq_true, decide_eq_true_eq] at accepted
    rcases accepted with ⟨⟨firstIn, secondIn⟩, aligned⟩
    rcases offset_bounds parcel aligned with ⟨even, low, high⟩
    rw [List.map_cons, List.map_cons, List.map_cons, List.map_nil,
      Part.operand, Part.operand, Named.register_eq firstIn,
      Named.register_eq secondIn]
    exact .branch (Named.number_lt firstIn parcel)
      (Named.number_lt secondIn parcel) even low high
  · next bank major funct3 size data base scattering accessed =>
    rw [Bool.and_eq_true, Bool.and_eq_true, Bool.and_eq_true,
      decide_eq_true_eq, decide_eq_true_eq] at accepted
    rcases accepted with ⟨⟨⟨dataIn, baseIn⟩, narrow⟩, rfl⟩
    rcases displacement_bounds parcel narrow with ⟨low, high⟩
    rw [List.map_cons, List.map_cons, List.map_nil, Part.operand,
      Named.register_eq dataIn]
    exact .load (Named.number_lt dataIn parcel)
      (Named.number_lt baseIn parcel) low high
  · next bank major funct3 size data base scattering accessed =>
    rw [Bool.and_eq_true, Bool.and_eq_true, Bool.and_eq_true,
      decide_eq_true_eq, decide_eq_true_eq] at accepted
    rcases accepted with ⟨⟨⟨dataIn, baseIn⟩, narrow⟩, rfl⟩
    rcases displacement_bounds parcel narrow with ⟨low, high⟩
    rw [List.map_cons, List.map_cons, List.map_nil, Part.operand,
      Named.register_eq dataIn]
    exact .store (Named.number_lt dataIn parcel)
      (Named.number_lt baseIn parcel) low high
  · next major funct3 destination source last =>
    rw [Bool.and_eq_true, Bool.and_eq_true] at accepted
    rcases accepted with ⟨⟨destinationIn, sourceIn⟩, taken⟩
    rcases exists_constant_of_takesConstant taken xlen address parcel with
      ⟨constant, same, low, high⟩
    rw [List.map_cons, List.map_cons, List.map_cons, List.map_nil, same,
      Part.operand, Part.operand, Named.register_eq destinationIn,
      Named.register_eq sourceIn]
    exact .constant (Named.number_lt destinationIn parcel)
      (Named.number_lt sourceIn parcel) low high
  · next bits major funct3 selector destination source =>
    rw [Bool.and_eq_true, Bool.and_eq_true, decide_eq_true_eq] at accepted
    rcases accepted with ⟨⟨destinationIn, sourceIn⟩, rfl⟩
    rw [List.map_cons, List.map_cons, List.map_cons, List.map_nil,
      Part.operand, Part.operand, Named.register_eq destinationIn,
      Named.register_eq sourceIn]
    exact .shift (Named.number_lt destinationIn parcel)
      (Named.number_lt sourceIn parcel) (amountSmall (by simp))
  · next major funct3 funct7 destination first second =>
    rw [Bool.and_eq_true, Bool.and_eq_true] at accepted
    rcases accepted with ⟨⟨destinationIn, firstIn⟩, secondIn⟩
    rw [List.map_cons, List.map_cons, List.map_cons, List.map_nil,
      Part.operand, Part.operand, Part.operand,
      Named.register_eq destinationIn, Named.register_eq firstIn,
      Named.register_eq secondIn]
    exact .registers (Named.number_lt destinationIn parcel)
      (Named.number_lt firstIn parcel) (Named.number_lt secondIn parcel)
  · exact .bare
  · cases accepted

end Encoding

end MachineCode.RiscV
