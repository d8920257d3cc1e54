import MachineCode.C64x.InstructionSet
import MachineCode.Proofs.Refusal

/-!
# Causes for which C64x operands are refused

A C64x word may name a control register that does not exist, a pair that
starts at an odd number or a pair on the other side, and some of its fields
have reserved values. It is refused for no other cause
(`Format.refuses_read`).
-/

namespace MachineCode.C64x

/-- Whether a read fails only for the causes that C64x words give. -/
abbrev Refuses {α : Type} (read : Read α) : Prop :=
  FailsOnly Architecture.c64x.mayRefuse read

/-! ## Registers and modes -/

theorem refuses_general (side : Nat) (crossed : Bool) (number : Nat) :
    Refuses (general side crossed number) := by
  rw [general]
  split
  · exact .ok _
  · exact .error rfl

theorem refuses_find (file : RegisterFile) (number : Nat) :
    Refuses (file.find number) := by
  rw [RegisterFile.find]
  split
  · exact .ok _
  · exact .error rfl

theorem refuses_pair (file : RegisterFile) (number : Nat) :
    Refuses (file.pair number) := by
  rw [RegisterFile.pair]
  split
  · exact .error rfl
  split
  · next refused => exact .error ((refuses_find ..).admits_of_eq_error refused)
  split
  · next refused => exact .error ((refuses_find ..).admits_of_eq_error refused)
  · exact .ok _

theorem refuses_generalPair (side number : Nat) :
    Refuses (generalPair side number) := by
  rw [generalPair]
  split
  · exact .error rfl
  split
  · exact .ok _
  · next refused => exact .error ((refuses_pair ..).admits_of_eq_error refused)

theorem refuses_selectMode
    {α : Type}
    (modes : List (Option α))
    (mode : Nat)
    (field : String) :
    Refuses (selectMode modes mode field) := by
  rw [selectMode]
  split
  · exact .ok _
  · exact .error rfl

theorem refuses_operand (source : FirstSource) (side bits : Nat) :
    Refuses (source.operand side bits) := by
  cases source with
  | register => exact .bind (refuses_general ..) fun _ => .ok _
  | signed | unsigned => exact .ok _

theorem refuses_reference
    (mode : AddressingMode)
    (side : Nat)
    (base : Register)
    (offset size scale : Nat) :
    Refuses (mode.reference side base offset size scale) := by
  rw [AddressingMode.reference]
  split
  · exact .bind (refuses_general ..) fun _ => .ok _
  · exact .ok _

/-! ## Formats -/

section Formats

variable {word : Word} (four : word.size = 4)
include four

theorem refuses_predicate : Refuses (predicate word) := by
  refine .bind (.field four (by decide) (by decide)) fun selected => ?_
  refine .bind (.flag four (by decide)) fun whenZero => ?_
  split
  · exact .ok _
  split
  · exact .bind (refuses_general ..) fun _ => .ok _
  · exact .bind (.field four (by decide) (by decide)) fun _ => .error rfl

theorem refuses_facts (slot : Slot) : Refuses (slot.facts word) :=
  .bind (refuses_predicate four) fun _ =>
    .bind (.flag four (by decide)) fun _ => .ok _

theorem refuses_fields : Refuses (Fields.read word) :=
  .bind (.field four (by decide) (by decide)) fun _ =>
    .bind (.field four (by decide) (by decide)) fun _ =>
      .bind (.field four (by decide) (by decide)) fun _ =>
        .bind (.field four (by decide) (by decide)) fun _ => .ok _

theorem refuses_readBinary (unit : FunctionalUnit) (source : FirstSource) :
    Refuses (readBinary unit source word) :=
  .bind (refuses_fields four) fun _ =>
    .bind (.flag four (by decide)) fun _ =>
      .bind (refuses_facts four _) fun _ =>
        .bind (refuses_operand ..) fun _ =>
          .bind (refuses_general ..) fun _ =>
            .bind (refuses_general ..) fun _ => .ok _

theorem refuses_readLong (pairSource : Bool) :
    Refuses (readLong pairSource word) := by
  refine .bind (refuses_fields four) fun fields => ?_
  refine .bind (.flag four (by decide)) fun crossed => ?_
  refine .ite (.throw rfl) ?_
  refine .bind (refuses_facts four _) fun facts => ?_
  refine .bind (refuses_general ..) fun first => ?_
  have rest (second : Operand) :
      Refuses (do
        let destination ← generalPair fields.side fields.destination
        return reading facts [.register first, second, destination]) :=
    .bind (refuses_generalPair ..) fun _ => .ok _
  exact .ite (.bind (refuses_generalPair ..) rest)
    (.bind (.map (refuses_general ..) _) rest)

theorem refuses_readUnary : Refuses (readUnary word) :=
  .bind (refuses_fields four) fun _ =>
    .bind (.flag four (by decide)) fun _ =>
      .bind (refuses_facts four _) fun _ =>
        .bind (refuses_general ..) fun _ =>
          .bind (refuses_general ..) fun _ => .ok _

theorem refuses_readShift (amount : FirstSource) :
    Refuses (readShift amount word) :=
  .bind (refuses_fields four) fun _ =>
    .bind (.flag four (by decide)) fun _ =>
      .bind (refuses_facts four _) fun _ =>
        .bind (refuses_general ..) fun _ =>
          .bind (refuses_operand ..) fun _ =>
            .bind (refuses_general ..) fun _ => .ok _

theorem refuses_readAddress (source : FirstSource) :
    Refuses (readAddress source word) :=
  .bind (refuses_fields four) fun _ =>
    .bind (refuses_facts four _) fun _ =>
      .bind (refuses_general ..) fun _ =>
        .bind (refuses_operand ..) fun _ =>
          .bind (refuses_general ..) fun _ => .ok _

theorem refuses_readConstant (constant : Nat → Operand) :
    Refuses (readConstant constant word) :=
  .bind (.field four (by decide) (by decide)) fun _ =>
    .bind (.field four (by decide) (by decide)) fun _ =>
      .bind (refuses_facts four _) fun _ =>
        .bind (.field four (by decide) (by decide)) fun _ =>
          .bind (refuses_general ..) fun _ => .ok _

theorem refuses_readNop : Refuses (readNop word) := by
  refine .bind (.field four (by decide) (by decide)) fun count => ?_
  exact .ite (.throw rfl) (.bind (refuses_facts four _) fun _ => .ok _)

theorem refuses_readIdle : Refuses (readIdle word) :=
  .bind (refuses_facts four _) fun _ => .ok _

theorem refuses_readBranch : Refuses (readBranch word) :=
  .bind (.field four (by decide) (by decide)) fun _ =>
    .bind (refuses_facts four _) fun _ =>
      .bind (.field four (by decide) (by decide)) fun _ => .ok _

theorem refuses_readBranchRegister : Refuses (readBranchRegister word) :=
  .bind (.field four (by decide) (by decide)) fun _ =>
    .bind (.flag four (by decide)) fun _ =>
      .bind (refuses_facts four _) fun _ =>
        .bind (.field four (by decide) (by decide)) fun _ =>
          .bind (refuses_general ..) fun _ => .ok _

theorem refuses_readBranchReturn : Refuses (readBranchReturn word) :=
  .bind (.field four (by decide) (by decide)) fun _ =>
    .bind (refuses_facts four _) fun _ =>
      .bind (.field four (by decide) (by decide)) fun _ =>
        .bind (refuses_find ..) fun _ => .ok _

theorem refuses_readMoveToControl : Refuses (readMoveToControl word) :=
  .bind (.field four (by decide) (by decide)) fun _ =>
    .bind (.flag four (by decide)) fun _ =>
      .bind (refuses_facts four _) fun _ =>
        .bind (.field four (by decide) (by decide)) fun _ =>
          .bind (refuses_general ..) fun _ =>
            .bind (.field four (by decide) (by decide)) fun _ =>
              .bind (refuses_find ..) fun _ => .ok _

theorem refuses_readMoveFromControl : Refuses (readMoveFromControl word) :=
  .bind (.field four (by decide) (by decide)) fun _ =>
    .bind (refuses_facts four _) fun _ =>
      .bind (.field four (by decide) (by decide)) fun _ =>
        .bind (refuses_find ..) fun _ =>
          .bind (.field four (by decide) (by decide)) fun _ =>
            .bind (refuses_general ..) fun _ => .ok _

theorem refuses_readReference (side size scale : Nat) :
    Refuses (readReference word side size scale) :=
  .bind (.field four (by decide) (by decide)) fun _ =>
    .bind (refuses_selectMode ..) fun _ =>
      .bind (.field four (by decide) (by decide)) fun _ =>
        .bind (refuses_general ..) fun _ =>
          .bind (.field four (by decide) (by decide)) fun _ =>
            .bind (refuses_reference ..) fun _ => .ok _

theorem refuses_readAccess (direction : Direction) (size : Nat) :
    Refuses (readAccess direction size word) := by
  refine .bind (.field four (by decide) (by decide)) fun side => ?_
  refine .bind (.field four (by decide) (by decide)) fun dataSide => ?_
  refine .bind (refuses_facts four _) fun facts => ?_
  refine .bind (refuses_readReference four ..) fun reference => ?_
  refine .bind (.field four (by decide) (by decide)) fun number => ?_
  exact .ite (.bind (refuses_generalPair ..) fun _ => .ok _)
    (.bind (.map (refuses_general ..) _) fun _ => .ok _)

theorem refuses_readUnalignedDouble (direction : Direction) :
    Refuses (readUnalignedDouble direction word) :=
  .bind (.field four (by decide) (by decide)) fun _ =>
    .bind (.field four (by decide) (by decide)) fun _ =>
      .bind (refuses_facts four _) fun _ =>
        .bind (.flag four (by decide)) fun _ =>
          .bind (refuses_readReference four ..) fun _ =>
            .bind (.field four (by decide) (by decide)) fun _ =>
              .bind (refuses_generalPair ..) fun _ => .ok _

theorem refuses_readFar (direction : Direction) (size : Nat) :
    Refuses (readFar direction size word) :=
  .bind (.field four (by decide) (by decide)) fun _ =>
    .bind (refuses_facts four _) fun _ =>
      .bind (.field four (by decide) (by decide)) fun _ =>
        .bind (refuses_general ..) fun _ =>
          .bind (.field four (by decide) (by decide)) fun _ =>
            .bind (.field four (by decide) (by decide)) fun _ =>
              .bind (refuses_general ..) fun _ => .ok _

/-- A word is refused for what its fields hold, never for lack of a field. -/
theorem Format.refuses_read (format : Format) :
    Refuses (format.read word) := by
  cases format with
  | nop => exact refuses_readNop four
  | idle => exact refuses_readIdle four
  | lRegisters | lConstant | sRegisters | sConstant | mRegisters
  | mConstant =>
      exact refuses_readBinary four ..
  | lLongDestination | lLongSource => exact refuses_readLong four _
  | lUnary => exact refuses_readUnary four
  | sShift | sShiftConstant => exact refuses_readShift four _
  | moveConstant | moveHighConstant | addConstant =>
      exact refuses_readConstant four _
  | branch => exact refuses_readBranch four
  | branchRegister => exact refuses_readBranchRegister four
  | branchReturn => exact refuses_readBranchReturn four
  | moveToControl => exact refuses_readMoveToControl four
  | moveFromControl => exact refuses_readMoveFromControl four
  | dRegisters | dConstant => exact refuses_readAddress four _
  | load1 | load2 | load4 | load8 | store1 | store2 | store4 | store8 =>
      exact refuses_readAccess four ..
  | loadUnaligned8 | storeUnaligned8 =>
      exact refuses_readUnalignedDouble four _
  | loadFar1 | loadFar2 | loadFar4 | storeFar1 | storeFar2 | storeFar4 =>
      exact refuses_readFar four ..

end Formats

end MachineCode.C64x
