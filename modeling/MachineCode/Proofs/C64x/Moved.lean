import MachineCode.C64x.InstructionSet
import MachineCode.Proofs.Moved

/-!
# C64x words that are moved

The only targets are those of the branches with a displacement. They are
relative to the fetch packet of 32 bytes that holds the branch, so a word that
is moved by whole fetch packets is the same instruction, with its target moved
(`moves`).
-/

namespace MachineCode.C64x

variable {distance : Address} {word : Word}

/-! ## Operands that are no targets -/

/-- A reading whose operands are left alone. -/
theorem okStays
    (facts : C64xSpecifics)
    {operands : List Operand}
    (stay : ∀ operand ∈ operands, operand.moved distance = operand) :
    ReadsMoved distance (.ok (reading facts operands))
      (.ok (reading facts operands)) := by
  refine .ok ?_
  rw [Reading.mapOperands, reading]
  congr
  exact ((List.map_congr_left stay).trans (List.map_id operands)).symm

theorem stays_register (read : Read Register) :
    Stays (Operand.moved distance) (Operand.register <$> read) := by
  intro operand given
  cases read with
  | error cause => cases given
  | ok register =>
      cases given
      rfl

theorem stays_operand (source : FirstSource) (side bits : Nat) :
    Stays (Operand.moved distance) (source.operand side bits) := by
  cases source with
  | register => exact stays_register (general side false bits)
  | signed | unsigned =>
      intro operand given
      cases given
      rfl

theorem stays_generalPair (side number : Nat) :
    Stays (Operand.moved distance) (generalPair side number) := by
  intro operand given
  rw [generalPair] at given
  split at given
  · cases given
  split at given
  · cases given
    rfl
  · cases given

/-- The memory that an access refers to. -/
theorem bindReference
    {side size scale : Nat}
    {here there : Operand → Read Reading}
    (rest :
      ∀ reference,
        ReadsMoved distance (here (.memory reference))
          (there (.memory reference))) :
    ReadsMoved distance (readReference word side size scale >>= here)
      (readReference word side size scale >>= there) := by
  simp only [readReference, bind_assoc, pure_bind]
  refine .bind _ fun number => .bind _ fun mode => .bind _ fun base => ?_
  exact .bind _ fun base => .bind _ fun offset => .bind _ rest

/-! ## Formats -/

section Formats

theorem readBinary_moved (unit : FunctionalUnit) (source : FirstSource) :
    ReadsMoved distance (readBinary unit source word)
      (readBinary unit source (word.moved distance)) := by
  refine .bind _ fun fields => .bind _ fun crossed => .bind _ fun facts => ?_
  refine .bindStays (stays_operand _ _ _) fun first stays => ?_
  refine .bind _ fun second => .bind _ fun destination => ?_
  exact okStays facts (by simp [stays])

theorem readLong_moved (pairSource : Bool) :
    ReadsMoved distance (readLong pairSource word)
      (readLong pairSource (word.moved distance)) := by
  refine .bind _ fun fields => .bind _ fun crossed => .ite (.error _) ?_
  refine .bind _ fun facts => .bind _ fun first => ?_
  have rest (second : Operand) (stays : second.moved distance = second) :
      ReadsMoved distance
        (do
          let destination ← generalPair fields.side fields.destination
          return reading facts [.register first, second, destination])
        (do
          let destination ← generalPair fields.side fields.destination
          return reading facts [.register first, second, destination]) := by
    refine .bindStays (stays_generalPair _ _) fun destination staysToo => ?_
    exact okStays facts (by simp [stays, staysToo])
  exact .ite (.bindStays (stays_generalPair _ _) rest)
    (.bindStays (stays_register _) rest)

theorem readUnary_moved :
    ReadsMoved distance (readUnary word)
      (readUnary (word.moved distance)) := by
  refine .bind _ fun fields => .bind _ fun crossed => .bind _ fun facts => ?_
  exact .bind _ fun source => .bind _ fun destination => .ok rfl

theorem readShift_moved (amount : FirstSource) :
    ReadsMoved distance (readShift amount word)
      (readShift amount (word.moved distance)) := by
  refine .bind _ fun fields => .bind _ fun crossed => .bind _ fun facts => ?_
  refine .bind _ fun source => ?_
  refine .bindStays (stays_operand _ _ _) fun amount stays => ?_
  exact .bind _ fun destination => okStays facts (by simp [stays])

theorem readAddress_moved (source : FirstSource) :
    ReadsMoved distance (readAddress source word)
      (readAddress source (word.moved distance)) := by
  refine .bind _ fun fields => .bind _ fun facts => .bind _ fun second => ?_
  refine .bindStays (stays_operand _ _ _) fun first stays => ?_
  exact .bind _ fun destination => okStays facts (by simp [stays])

theorem readConstant_moved
    {constant : Nat → Operand}
    (stays : ∀ bits, (constant bits).moved distance = constant bits) :
    ReadsMoved distance (readConstant constant word)
      (readConstant constant (word.moved distance)) := by
  refine .bind _ fun bits => .bind _ fun side => .bind _ fun facts => ?_
  refine .bind _ fun number => .bind _ fun destination => ?_
  exact okStays facts (by simp [stays])

theorem readNop_moved :
    ReadsMoved distance (readNop word) (readNop (word.moved distance)) :=
  .bind _ fun _ => .ite (.error _) (.bind _ fun _ => .ok rfl)

theorem readIdle_moved :
    ReadsMoved distance (readIdle word) (readIdle (word.moved distance)) :=
  .bind _ fun _ => .ok rfl

theorem readBranch_moved (packets : 2 ^ 5 ∣ distance.toNat) :
    ReadsMoved distance (readBranch word)
      (readBranch (word.moved distance)) := by
  refine .bind _ fun side => .bind _ fun facts => ?_
  refine .bind _ fun displacement => .ok ?_
  exact congrArg (fun target => reading facts [target])
    (Operand.relativeField_add packets (by decide) ..)

theorem readBranchRegister_moved :
    ReadsMoved distance (readBranchRegister word)
      (readBranchRegister (word.moved distance)) := by
  refine .bind _ fun side => .bind _ fun crossed => .bind _ fun facts => ?_
  exact .bind _ fun number => .bind _ fun target => .ok rfl

theorem readBranchReturn_moved :
    ReadsMoved distance (readBranchReturn word)
      (readBranchReturn (word.moved distance)) := by
  refine .bind _ fun side => .bind _ fun facts => ?_
  exact .bind _ fun number => .bind _ fun pointer => .ok rfl

theorem readMoveToControl_moved :
    ReadsMoved distance (readMoveToControl word)
      (readMoveToControl (word.moved distance)) := by
  refine .bind _ fun side => .bind _ fun crossed => .bind _ fun facts => ?_
  refine .bind _ fun number => .bind _ fun source => ?_
  exact .bind _ fun number => .bind _ fun control => .ok rfl

theorem readMoveFromControl_moved :
    ReadsMoved distance (readMoveFromControl word)
      (readMoveFromControl (word.moved distance)) := by
  refine .bind _ fun side => .bind _ fun facts => ?_
  refine .bind _ fun number => .bind _ fun control => ?_
  exact .bind _ fun number => .bind _ fun destination => .ok rfl

/-- Memory and data are left alone in either order. -/
theorem okAccess
    (facts : C64xSpecifics)
    (direction : Direction)
    (reference : MemoryReference)
    {data : Operand}
    (stays : data.moved distance = data) :
    ReadsMoved distance
      (.ok (reading facts (direction.operands (.memory reference) data)))
      (.ok (reading facts (direction.operands (.memory reference) data))) := by
  refine okStays facts ?_
  have memory :
      (Operand.memory reference).moved distance = .memory reference :=
    rfl
  cases direction <;> simp [Direction.operands, stays, memory]

theorem readAccess_moved (direction : Direction) (size : Nat) :
    ReadsMoved distance (readAccess direction size word)
      (readAccess direction size (word.moved distance)) := by
  refine .bind _ fun side => .bind _ fun dataSide => .bind _ fun facts => ?_
  refine bindReference fun reference => .bind _ fun number => ?_
  exact .ite
    (.bindStays (stays_generalPair _ _) fun _ => okAccess facts direction _)
    (.bindStays (stays_register _) fun _ => okAccess facts direction _)

theorem readUnalignedDouble_moved (direction : Direction) :
    ReadsMoved distance (readUnalignedDouble direction word)
      (readUnalignedDouble direction (word.moved distance)) := by
  refine .bind _ fun side => .bind _ fun dataSide => .bind _ fun facts => ?_
  refine .bind _ fun scaled => bindReference fun reference => ?_
  refine .bind _ fun number => ?_
  exact .bindStays (stays_generalPair _ _) fun _ =>
    okAccess facts direction _

theorem readFar_moved (direction : Direction) (size : Nat) :
    ReadsMoved distance (readFar direction size word)
      (readFar direction size (word.moved distance)) := by
  refine .bind _ fun dataSide => .bind _ fun facts => .bind _ fun number => ?_
  refine .bind _ fun base => .bind _ fun offset => .bind _ fun number => ?_
  exact .bind _ fun data => okAccess facts direction _ rfl

/-- A word that is moved by whole packets is read the same, but for targets. -/
theorem Format.read_moved
    (packets : 2 ^ 5 ∣ distance.toNat)
    (format : Format) :
    ReadsMoved distance (format.read word)
      (format.read (word.moved distance)) := by
  cases format with
  | nop => exact readNop_moved
  | idle => exact readIdle_moved
  | lRegisters | lConstant | sRegisters | sConstant | mRegisters
  | mConstant =>
      exact readBinary_moved ..
  | lLongDestination | lLongSource => exact readLong_moved _
  | lUnary => exact readUnary_moved
  | sShift | sShiftConstant => exact readShift_moved _
  | moveConstant | moveHighConstant | addConstant =>
      exact readConstant_moved fun _ => rfl
  | branch => exact readBranch_moved packets
  | branchRegister => exact readBranchRegister_moved
  | branchReturn => exact readBranchReturn_moved
  | moveToControl => exact readMoveToControl_moved
  | moveFromControl => exact readMoveFromControl_moved
  | dRegisters | dConstant => exact readAddress_moved _
  | load1 | load2 | load4 | load8 | store1 | store2 | store4 | store8 =>
      exact readAccess_moved ..
  | loadUnaligned8 | storeUnaligned8 => exact readUnalignedDouble_moved _
  | loadFar1 | loadFar2 | loadFar4 | storeFar1 | storeFar2 | storeFar4 =>
      exact readFar_moved ..

end Formats

/-! ## Preferred spellings -/

theorem moves_zeroOf : Alias.Moves distance zeroOf := by
  intro operands
  match operands with
  | [first, second, destination] =>
      cases first with
      | register first =>
          cases second with
          | register second =>
              simp only [List.map_cons, List.map_nil, Operand.moved_register,
                zeroOf]
              split <;> rfl
          | _ => rfl
      | _ => cases second <;> rfl
  | [] => rfl
  | [first] => cases first <;> rfl
  | [first, second] => cases first <;> cases second <;> rfl
  | first :: second :: _ :: _ :: _ => cases first <;> cases second <;> rfl

theorem moves_moveOf : Alias.Moves distance moveOf := by
  intro operands
  match operands with
  | [first, second, destination] =>
      simp only [List.map_cons, List.map_nil, moveOf,
        Operand.isConstant_moved, Operand.kind_moved]
      split
      · rfl
      split <;> rfl
  | [] | [_] | [_, _] | _ :: _ :: _ :: _ :: _ => rfl

theorem moves_afterConstant (value : Int) :
    Alias.Moves distance (afterConstant value) := by
  intro operands
  match operands with
  | [first, source, destination] =>
      exact Alias.commutes_ite (first.isConstant_moved distance value) rfl
  | [] | [_] | [_, _] | _ :: _ :: _ :: _ :: _ => rfl

theorem moves_singleCycle : Alias.Moves distance singleCycle := by
  intro operands
  match operands with
  | [cycles] =>
      exact Alias.commutes_ite (cycles.isConstant_moved distance 1) rfl
  | [] | _ :: _ :: _ => rfl

theorem moves_of_mem : ∀ rule ∈ idioms, Alias.Moves distance rule.reduce := by
  simp only [idioms, idiom, List.forall_mem_cons]
  exact
    ⟨moves_zeroOf,
      moves_moveOf,
      moves_afterConstant 0,
      moves_afterConstant (-1),
      moves_singleCycle,
      by simp⟩

/-! ## The instruction set -/

theorem completeDetail_moved (detail : Detail) :
    completeDetail (Detail.moved distance detail) =
      (completeDetail detail).moved distance := by
  have same : (Detail.moved distance detail).specifics = detail.specifics :=
    rfl
  rw [completeDetail, completeDetail, same]
  split <;> rfl

theorem leading_render
    (change : Operand → Operand)
    (form : Form)
    (specifics : Specifics)
    (options : Options) :
    (render (form.mapOperands change) specifics options).leading =
      (render form specifics options).leading := by
  cases specifics <;> rfl

theorem moves (packets : 2 ^ 5 ∣ distance.toNat) : isa.Moves distance where
  reads := by
    intro number word
    dsimp only [isa]
    cases Format.ofId? number with
    | none => exact .error _
    | some format => exact format.read_moved packets
  reduces := moves_of_mem
  completes := completeDetail_moved
  leads := leading_render _

end MachineCode.C64x
