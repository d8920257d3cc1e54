import MachineCode.Proofs.AccessList
import MachineCode.Proofs.Bits64
import MachineCode.Proofs.PositionIndependence
import Mathlib.Data.Int.ModEq

/-!
# Targets are exact

The field of a distance has one to 64 bits. Whatever stands above them, they
stand for one integer (`IsSignedReading`), and the operand of the field leads
from the address to that integer times the unit of the field
(`Operand.reachesFrom_relativeField`). Offsets and targets are numbers of 64
bits, so both are meant modulo `2 ^ 64`, at the ends of the address space, too.

The families use few fields (`Architecture.distanceFields`), and each is so
narrow that no offset wraps around (`Architecture.fits_of_mem`). Every target
among the operands of a word is read from one of them
(`Architecture.readsTargets`).
-/

namespace MachineCode

/-! ## Signed readings -/

/-- Whether an integer is what the low bits stand for, in two's complement. -/
structure IsSignedReading (raw bits : Nat) (value : Int) : Prop where
  low : -2 ^ (bits - 1) ≤ value
  high : value < 2 ^ (bits - 1)
  congruent : value ≡ raw [ZMOD 2 ^ bits]

section SignedReading

variable
  {raw bits : Nat}
  (positive : 1 ≤ bits)
  (narrow : bits ≤ 64)
include positive narrow

theorem isSignedReading_signExtend :
    IsSignedReading raw bits (signExtend raw bits) := by
  have bounds := @signExtend_bounds raw bits (bits - 1) (by omega) (by omega)
  have power : ((2 ^ bits : Nat) : Int) = 2 ^ bits := by simp
  refine ⟨bounds.1, bounds.2, ?_⟩
  rw [signExtend_eq_bmod narrow, Int.ModEq, ← power, Int.bmod_emod]

/-- There is no other signed reading. -/
theorem IsSignedReading.signExtend_eq
    {value : Int}
    (reading : IsSignedReading raw bits value) :
    signExtend raw bits = value := by
  have power : ((2 ^ bits : Nat) : Int) = 2 ^ bits := by simp
  have double : (2 : Int) ^ bits = 2 ^ (bits - 1) * 2 := by
    rw [← Int.pow_succ, Nat.succ_eq_add_one, Nat.sub_add_cancel positive]
  have same : value % (2 ^ bits : Nat) = raw % (2 ^ bits : Nat) := by
    rw [power]
    exact reading.congruent
  have low := reading.low
  have high := reading.high
  rw [signExtend_eq_bmod narrow, ← Int.emod_bmod, ← same, Int.emod_bmod]
  exact Int.bmod_eq_of_le (by rw [power]; omega) (by rw [power]; omega)

end SignedReading

/-! ## Offsets and targets -/

/--
Whether an operand is the target at a distance from a base, where the offset
is a signed number of 64 bits and the target an unsigned one.
-/
inductive Operand.ReachesFrom (base : Address) (distance : Int) :
    Operand → Prop where
  | relative
      {offset : Int}
      {target : Address}
      (low : -2 ^ 63 ≤ offset)
      (high : offset < 2 ^ 63)
      (offset_congruent : offset ≡ distance [ZMOD 2 ^ 64])
      (target_congruent :
        (target.toNat : Int) ≡ base.toNat + distance [ZMOD 2 ^ 64]) :
      ReachesFrom base distance (.relative offset target)

theorem wrapSigned64_bounds (value : Int) :
    -2 ^ 63 ≤ wrapSigned64 value ∧ wrapSigned64 value < 2 ^ 63 := by
  have low := @Int.le_bmod value (2 ^ 64) (by decide)
  have high := @Int.bmod_lt value (2 ^ 64) (by decide)
  rw [wrapSigned64]
  omega

theorem wrapSigned64_modEq (value : Int) :
    wrapSigned64 value ≡ value [ZMOD 2 ^ 64] :=
  Int.bmod_emod

theorem Address.toNat_displace_modEq (base : Address) (distance : Int) :
    ((base.displace distance).toNat : Int) ≡
      base.toNat + distance [ZMOD 2 ^ 64] := by
  have nonneg : 0 ≤ distance % 2 ^ 64 := Int.emod_nonneg _ (by decide)
  rw [displace, BitVec.toNat_add, BitVec.toNat_ofInt, Int.ModEq]
  omega

/-- The operand of a field is exact modulo `2 ^ 64`. -/
theorem Operand.reachesFrom_relativeField
    (raw bits : Nat)
    (scale : Int)
    (address alignment : Address) :
    (relativeField raw bits scale address alignment).ReachesFrom
      (address &&& ~~~alignment) (signExtend raw bits * scale) := by
  have bounds := wrapSigned64_bounds (signExtend raw bits * scale)
  have wrapped := wrapSigned64_modEq (signExtend raw bits * scale)
  refine .relative bounds.1 bounds.2 wrapped ?_
  exact (Address.toNat_displace_modEq ..).trans (wrapped.add_left _)

/-! ## Fields of distances -/

/-- How a family reads distances from a field. -/
structure DistanceField where
  bits : Nat
  /-- The number of bytes that distances are counted in. -/
  scale : Int
  /-- The bits of the address that are cleared. -/
  alignment : Address
deriving DecidableEq, Repr

namespace DistanceField

/-- The operand that a field gives at an address. -/
def operand (field : DistanceField) (raw : Nat) (address : Address) :
    Operand :=
  .relativeField raw field.bits field.scale address field.alignment

/-- Whether every distance is a signed number of 64 bits. -/
def Fits (field : DistanceField) : Prop :=
  1 ≤ field.bits ∧ field.bits ≤ 64 ∧ 0 < field.scale ∧
    2 ^ (field.bits - 1) * field.scale ≤ 2 ^ 63

instance (field : DistanceField) : Decidable field.Fits :=
  inferInstanceAs (Decidable (_ ∧ _))

/-- The offset of a field that fits does not wrap around. -/
theorem Fits.relativeOffset_eq
    {field : DistanceField}
    (fits : field.Fits)
    (raw : Nat) :
    relativeOffset raw field.bits field.scale =
      signExtend raw field.bits * field.scale := by
  rcases fits with ⟨positive, narrow, scaled, small⟩
  exact relativeOffset_eq_mul (by omega) (by omega) scaled small

end DistanceField

/-- The fields from which the formats of a family read distances. -/
def Architecture.distanceFields : Architecture → List DistanceField
  | .arm64 =>
    [⟨26, 4, 0⟩, ⟨21, 4096, 0xfff⟩, ⟨21, 1, 0⟩, ⟨19, 4, 0⟩, ⟨14, 4, 0⟩]
  | .riscV64 | .riscV32 => [⟨21, 1, 0⟩, ⟨13, 1, 0⟩, ⟨12, 1, 0⟩, ⟨9, 1, 0⟩]
  | .c64x => [⟨21, 4, 0x1f⟩]
  | .unknown _ => []

theorem Architecture.fits_of_mem
    {architecture : Architecture}
    {field : DistanceField}
    (listed : field ∈ architecture.distanceFields) :
    field.Fits := by
  have each : ∀ field ∈ architecture.distanceFields, field.Fits := by
    cases architecture with
    | unknown => exact List.forall_mem_nil _
    | _ => decide
  exact each field listed

/-! ## Formats -/

/-- Whether an operand is no target, or one that is read from a field. -/
inductive Operand.IsReadFrom
    (fields : List DistanceField)
    (address : Address) :
    Operand → Prop where
  | relative
      {field : DistanceField}
      (listed : field ∈ fields)
      (raw : Nat) :
      IsReadFrom fields address (field.operand raw address)
  | other
      {operand : Operand}
      (untargeted : operand.target? = none) :
      IsReadFrom fields address operand

/-- Of two operands, only the second one is a target. -/
theorem Operand.isReadFrom_of_mem_pair
    {fields : List DistanceField}
    {address : Address}
    {first target : Operand}
    (untargeted : first.target? = none)
    (read : target.IsReadFrom fields address) :
    ∀ operand ∈ [first, target], operand.IsReadFrom fields address :=
  List.forall_mem_cons.mpr
    ⟨.other untargeted, List.forall_mem_singleton.mpr read⟩

/-- Whether all targets of a read are read from some fields. -/
abbrev ReadsTargets
    (fields : List DistanceField)
    (address : Address)
    (read : Read Reading) :
    Prop :=
  Yields (fun reading => ∀ operand ∈ reading.operands,
    operand.IsReadFrom fields address) read

/-- A read that is the same at some other address gives no target. -/
theorem ReadsTargets.of_moved
    {fields : List DistanceField}
    {address distance : Address}
    (apart : distance ≠ 0)
    {here there : Read Reading}
    (moved : ReadsMoved distance here there)
    (same : there = here) :
    ReadsTargets fields address here := by
  subst same
  refine .of_forall fun reading given operand member => .other ?_
  rw [given] at moved
  have operands :
      reading.operands.map id =
        reading.operands.map (Operand.moved distance) :=
    (List.map_id _).trans (congrArg Reading.operands (Except.ok.inj moved))
  have stays := List.map_inj_left.mp operands operand member
  cases operand with
  | relative offset target =>
      have still := (Operand.relative.inj stays).2
      exact absurd (BitVec.self_eq_add_right.mp still) apart
  | _ => rfl

/-! ### Arm64 -/

namespace Arm64

variable {word : Word}

theorem untargeted_readRegister (file : RegisterFile) (start : Nat) :
    Yields (fun operand => operand.target? = none)
      (readRegister file start word) :=
  .bindAny fun _ => .bindAny fun _ => .ok rfl

/-- A target is read from a field that is counted in words. -/
theorem isReadFrom_readTarget
    (start : Nat)
    {length : Nat}
    (listed : ⟨length, 4, 0⟩ ∈ Architecture.arm64.distanceFields) :
    Yields (Operand.IsReadFrom Architecture.arm64.distanceFields word.address)
      (readTarget start length word) :=
  .bindAny fun raw => .ok (.relative listed raw)

theorem readsTargets_readNearAddress :
    ReadsTargets Architecture.arm64.distanceFields word.address
      (readNearAddress word) := by
  refine .bindAny fun paged => ?_
  refine .bind (untargeted_readRegister ..) fun destination untargeted => ?_
  refine .bindAny fun high => .bindAny fun low => .ok ?_
  refine Operand.isReadFrom_of_mem_pair untargeted ?_
  cases paged with
  | true =>
      have listed :
          ⟨21, 4096, 0xfff⟩ ∈ Architecture.arm64.distanceFields := by
        decide
      exact .relative listed (4 * high + low)
  | false =>
      have listed : ⟨21, 1, 0⟩ ∈ Architecture.arm64.distanceFields := by
        decide
      exact .relative listed (4 * high + low)

theorem readsTargets_readCompareBranch :
    ReadsTargets Architecture.arm64.distanceFields word.address
      (readCompareBranch word) := by
  refine .bindAny fun wide => ?_
  refine .bind (isReadFrom_readTarget 5 (by decide)) fun target read => ?_
  refine .bind (untargeted_readRegister ..) fun source untargeted => .ok ?_
  exact Operand.isReadFrom_of_mem_pair untargeted read

theorem readsTargets_readTestBranch :
    ReadsTargets Architecture.arm64.distanceFields word.address
      (readTestBranch word) := by
  refine .bindAny fun high => .bindAny fun low => ?_
  refine .bind (isReadFrom_readTarget 5 (by decide)) fun target read => ?_
  refine .bind (untargeted_readRegister ..) fun source untargeted => .ok ?_
  exact List.forall_mem_cons.mpr
    ⟨.other untargeted, Operand.isReadFrom_of_mem_pair rfl read⟩

theorem readsTargets_readLiteral :
    ReadsTargets Architecture.arm64.distanceFields word.address
      (readLiteral word) := by
  have listed : ⟨19, 4, 0⟩ ∈ Architecture.arm64.distanceFields := by decide
  refine .bindAny fun size => .bindAny fun distance => ?_
  refine .bind (untargeted_readRegister ..) fun data untargeted => .ok ?_
  exact Operand.isReadFrom_of_mem_pair untargeted (.relative listed distance)

/-- The targets of Arm64 formats. -/
theorem readsTargets (format : Format) :
    ReadsTargets Architecture.arm64.distanceFields word.address
      (format.read word) := by
  obtain ⟨distance, apart, whole⟩ :
      ∃ distance : Address, distance ≠ 0 ∧ 2 ^ 12 ∣ distance.toNat :=
    ⟨0x1000, by decide, by decide⟩
  have moved := @Format.read_moved distance word whole
  cases format with
  | nearAddress => exact readsTargets_readNearAddress
  | branch =>
      exact .bind (isReadFrom_readTarget 0 (by decide)) fun _ read =>
        .ok (List.forall_mem_singleton.mpr read)
  | conditionalBranch =>
      exact .bind (isReadFrom_readTarget 5 (by decide)) fun _ read =>
        .bindAny fun _ => .ok (List.forall_mem_singleton.mpr read)
  | compareBranch => exact readsTargets_readCompareBranch
  | testBranch => exact readsTargets_readTestBranch
  | literal => exact readsTargets_readLiteral
  -- The other formats do not look at the address.
  | _ => exact .of_moved apart (moved _) rfl

end Arm64

/-! ### RISC-V -/

namespace RiscV

variable {xlen : Xlen} {word : Word}

/-- A target is read from bits that are gathered, and counted in bytes. -/
theorem isReadFrom_scatteredTarget
    (pieces : List BitPiece)
    {bits : Nat}
    (listed : ⟨bits, 1, 0⟩ ∈ Architecture.riscV64.distanceFields) :
    (scatteredTarget pieces bits word).IsReadFrom
      Architecture.riscV64.distanceFields word.address :=
  .relative listed (gather word.value pieces)

theorem untargeted_readRegister (file : RegisterFile) (start : Nat) :
    Yields (fun operand => operand.target? = none)
      (readRegister file start word) :=
  .bindAny fun _ => .bindAny fun _ => .ok rfl

theorem readsTargets_readBranch :
    ReadsTargets Architecture.riscV64.distanceFields word.address
      (readBranch xlen word) := by
  refine .bind (untargeted_readRegister ..) fun first untargeted => ?_
  refine .bind (untargeted_readRegister ..) fun second untargetedToo => ?_
  refine .ok (List.forall_mem_cons.mpr ⟨.other untargeted, ?_⟩)
  exact Operand.isReadFrom_of_mem_pair untargetedToo
    (isReadFrom_scatteredTarget _ (by decide))

theorem readsTargets_readJump :
    ReadsTargets Architecture.riscV64.distanceFields word.address
      (readJump xlen word) := by
  refine .bind (untargeted_readRegister ..) fun link untargeted => .ok ?_
  exact Operand.isReadFrom_of_mem_pair untargeted
    (isReadFrom_scatteredTarget _ (by decide))

theorem readsTargets_readShortBranch :
    ReadsTargets Architecture.riscV64.distanceFields word.address
      (readShortBranch xlen word) := by
  have source (short : Short) :
      Yields (fun operand => operand.target? = none)
        (registerOperand (shortIntegers xlen) short.shortDestination) :=
    .map (.of_forall fun _ _ => trivial) fun _ _ => rfl
  refine .bindAny fun short => ?_
  refine .bind (source short) fun source untargeted => .ok ?_
  exact Operand.isReadFrom_of_mem_pair untargeted
    (isReadFrom_scatteredTarget _ (by decide))

/-- The targets of RISC-V formats. -/
theorem readsTargets (format : Format) :
    ReadsTargets Architecture.riscV64.distanceFields word.address
      (format.read xlen word) := by
  obtain ⟨distance, apart⟩ : ∃ distance : Address, distance ≠ 0 :=
    ⟨1, by decide⟩
  have moved := @Format.read_moved distance xlen word
  cases format with
  | jump => exact readsTargets_readJump
  | branch => exact readsTargets_readBranch
  | shortJump =>
      exact .bindAny fun _ => .ok (List.forall_mem_singleton.mpr
        (isReadFrom_scatteredTarget _ (by decide)))
  | shortBranch => exact readsTargets_readShortBranch
  -- The other formats do not look at the address.
  | _ => exact .of_moved apart (moved _) rfl

end RiscV

/-! ### C64x -/

namespace C64x

/-- The target of the one C64x format that has one. -/
theorem readsTargets {word : Word} (format : Format) :
    ReadsTargets Architecture.c64x.distanceFields word.address
      (format.read word) := by
  obtain ⟨distance, apart, whole⟩ :
      ∃ distance : Address, distance ≠ 0 ∧ 2 ^ 5 ∣ distance.toNat :=
    ⟨0x20, by decide, by decide⟩
  have moved := @Format.read_moved distance word whole
  cases format with
  | branch =>
      have listed :
          ⟨21, 4, fetchPacketMask⟩ ∈ Architecture.c64x.distanceFields := by
        decide
      refine .bindAny fun side => .bindAny fun facts => ?_
      refine .bindAny fun displacement => .ok ?_
      exact List.forall_mem_singleton.mpr (.relative listed displacement)
  -- The other formats do not look at the address.
  | _ => exact .of_moved apart (moved _) rfl

end C64x

/-! ## Families -/

/-- All targets that a family reads are read from its fields. -/
theorem Architecture.readsTargets
    {architecture : Architecture}
    {isa : Isa}
    (known : architecture.isa? = some isa)
    (format : Nat)
    (word : Word) :
    ReadsTargets architecture.distanceFields word.address
      (isa.readOperands format word) := by
  cases architecture with
  | arm64 =>
      cases known
      dsimp only [Arm64.isa]
      cases Arm64.Format.ofId? format with
      | none => exact .error _
      | some format => exact Arm64.readsTargets format
  | riscV64 | riscV32 =>
      cases known
      dsimp only [RiscV.isa]
      cases RiscV.Format.ofId? format with
      | none => exact .error _
      | some format => exact RiscV.readsTargets format
  | c64x =>
      cases known
      dsimp only [C64x.isa]
      cases C64x.Format.ofId? format with
      | none => exact .error _
      | some format => exact C64x.readsTargets format
  | unknown => cases known

/-- What the low bits of a field stand for, and where its operand leads. -/
structure IsExact (raw bits : Nat) (signed : Int) : Prop where
  reading : IsSignedReading raw bits signed
  unique : ∀ other, IsSignedReading raw bits other → other = signed
  signExtend_eq : signExtend raw bits = signed
  reaches :
    ∀ scale address alignment,
      (Operand.relativeField raw bits scale address alignment).ReachesFrom
        (address &&& ~~~alignment) (signed * scale)

theorem isExact_signExtend
    {bits : Nat}
    (positive : 1 ≤ bits)
    (narrow : bits ≤ 64)
    (raw : Nat) :
    IsExact raw bits (signExtend raw bits) where
  reading := isSignedReading_signExtend positive narrow
  unique _ other := (other.signExtend_eq positive narrow).symm
  signExtend_eq := rfl
  reaches := Operand.reachesFrom_relativeField raw bits

/-- The operand of a field that fits has the distance itself as its offset. -/
theorem DistanceField.Fits.exists_operand_eq
    {field : DistanceField}
    (fits : field.Fits)
    {raw : Nat}
    {signed : Int}
    (reading : IsSignedReading raw field.bits signed)
    (address : Address) :
    ∃ target,
      field.operand raw address = .relative (signed * field.scale) target := by
  have same := reading.signExtend_eq fits.1 fits.2.1
  rw [operand, Operand.relativeField, fits.relativeOffset_eq, same]
  exact ⟨_, rfl⟩

/--
The low bits of a field, up to all 64, have one signed reading, and the
operand of the field is exact modulo `2 ^ 64`, whether it is computed with
integers or in words of 64 bits. The offsets of the fields that a family uses
do not wrap around, and every target that it reads is read from such a field.
-/
theorem targets_are_exact :
    (∀ raw bits, 1 ≤ bits → bits ≤ 64 →
        ∃ signed, IsExact raw bits signed) ∧
      (∀ raw bits scale address alignment,
        (Bits64.signExtend raw bits).toInt = signExtend raw.toNat bits ∧
          Operand.relative (Bits64.offset raw bits scale).toInt
              (Bits64.target raw bits scale address alignment) =
            .relativeField raw.toNat bits scale.toInt address alignment) ∧
      (∀ architecture : Architecture,
        ∀ field ∈ architecture.distanceFields, ∀ raw signed address,
          IsSignedReading raw field.bits signed →
            ∃ target,
              field.operand raw address =
                .relative (signed * field.scale) target) ∧
      ∀ (architecture : Architecture) (isa : Isa) format word reading,
        architecture.isa? = some isa →
          isa.readOperands format word = .ok reading →
          ∀ operand ∈ reading.operands, operand.target? ≠ none →
            ∃ field ∈ architecture.distanceFields, ∃ raw,
              operand = field.operand raw word.address := by
  refine ⟨?_, ?_, ?_, ?_⟩
  · intro raw bits positive narrow
    exact ⟨_, isExact_signExtend positive narrow raw⟩
  · intro raw bits scale address alignment
    refine ⟨Bits64.toInt_signExtend raw bits, ?_⟩
    rw [Bits64.toInt_offset, Bits64.target_eq, Operand.relativeField]
  · intro architecture field listed raw signed address reading
    exact (Architecture.fits_of_mem listed).exists_operand_eq reading address
  · intro architecture isa format word reading known given operand member
      targeted
    have readFrom :=
      (Architecture.readsTargets known format word).holds_of_eq_ok given
        operand member
    cases readFrom with
    | relative listed raw => exact ⟨_, listed, raw, rfl⟩
    | other untargeted => exact absurd untargeted targeted

/-- The bytes of an Arm64 branch to the instruction before it. -/
def previousInput : List UInt8 :=
  [0xff, 0xff, 0xff, 0x17]

/--
A branch back from the first address leads to the last word; and the most
negative field of 64 bits is its own opposite.
-/
theorem targets_are_exact_at_ends :
    (∃ word reading,
        Word.ofBytes? .little 4 0 previousInput = some word ∧
          Arm64.isa.readOperands Arm64.Format.branch.id word = .ok reading ∧
          reading.operands = [.relative (-4) 0xfffffffffffffffc] ∧
          ∃ field ∈ Architecture.arm64.distanceFields, ∃ raw,
            Operand.relative (-4) 0xfffffffffffffffc =
              field.operand raw 0) ∧
      (∃ target,
        DistanceField.operand ⟨21, 4, 0x1f⟩ 0x900000 0x1004 =
          .relative (-4194304) target) ∧
      (∃ signed, IsExact (2 ^ 63) 64 signed ∧ signed = -2 ^ 63) ∧
      Operand.relativeField (2 ^ 63) 64 (-1) 0x1004 0x1f =
        .relative (-2 ^ 63) 0x8000000000001000 := by
  refine ⟨?_, ?_, ?_, by decide⟩
  · obtain ⟨word, reading, input, address, given, operands⟩ :
        ∃ word reading,
          Word.ofBytes? .little 4 0 previousInput = some word ∧
            word.address = 0 ∧
            Arm64.isa.readOperands Arm64.Format.branch.id word =
              .ok reading ∧
            reading.operands = [.relative (-4) 0xfffffffffffffffc] :=
      ⟨_, _, rfl, rfl, rfl, by decide⟩
    refine ⟨word, reading, input, given, operands, ?_⟩
    have member :
        Operand.relative (-4) 0xfffffffffffffffc ∈ reading.operands := by
      rw [operands]
      exact List.mem_singleton_self _
    rw [← address]
    exact targets_are_exact.2.2.2 .arm64 Arm64.isa Arm64.Format.branch.id
      word reading rfl given _ member (fun none => nomatch none)
  · have reading : IsSignedReading 0x900000 21 (-1048576) :=
      ⟨by decide, by decide, by decide⟩
    exact targets_are_exact.2.2.1 .c64x ⟨21, 4, 0x1f⟩ (by decide) _ _ _
      reading
  · rcases targets_are_exact.1 (2 ^ 63) 64 (by decide) (by decide) with
      ⟨signed, exact⟩
    exact ⟨signed, exact, exact.signExtend_eq.symm⟩

end MachineCode
