import MachineCode.Proofs.Moved
import MachineCode.Proofs.RiscV.PseudoOperands
import MachineCode.RiscV.InstructionSet

/-!
# RISC-V words that are moved

Targets are relative to the instruction, whatever its address. A word that is
moved by any distance is therefore the same instruction, with its targets
moved (`moves`).
-/

namespace MachineCode.RiscV

variable
  {distance : Address}
  {xlen : Xlen}
  {word : Word}

theorem scatteredTarget_moved (pieces : List BitPiece) (bits : Nat) :
    scatteredTarget pieces bits (word.moved distance) =
      (scatteredTarget pieces bits word).moved distance :=
  Operand.relativeField_add_zero ..

/-! ## Words of four bytes -/

section Long

/-- A register that is read is no target. -/
theorem bindRegister
    {file : RegisterFile}
    {start : Nat}
    {here there : Operand → Read Reading}
    (rest :
      ∀ register,
        ReadsMoved distance (here (.register register))
          (there (.register register))) :
    ReadsMoved distance (readRegister file start word >>= here)
      (readRegister file start word >>= there) := by
  simp only [readRegister, bind_assoc, pure_bind]
  exact .bind _ fun _ => .bind _ rest

/-- Three registers that are read are no targets. -/
theorem bindThree
    {file : RegisterFile}
    {here there : List Operand → Read Reading}
    (rest :
      ∀ destination first second,
        ReadsMoved distance
          (here [.register destination, .register first, .register second])
          (there [.register destination, .register first, .register second])) :
    ReadsMoved distance (readThree file word >>= here)
      (readThree file word >>= there) := by
  simp only [readThree, bind_assoc, pure_bind]
  refine bindRegister fun destination => ?_
  exact bindRegister fun first => bindRegister fun second => rest ..

theorem readUpper_moved :
    ReadsMoved distance (readUpper xlen word)
      (readUpper xlen (word.moved distance)) :=
  bindRegister fun _ => .bind _ fun _ => .ok rfl

theorem readJump_moved :
    ReadsMoved distance (readJump xlen word)
      (readJump xlen (word.moved distance)) := by
  refine bindRegister fun link => .ok ?_
  exact congrArg (fun target => reading [.register link, target])
    (scatteredTarget_moved ..)

theorem readBranch_moved :
    ReadsMoved distance (readBranch xlen word)
      (readBranch xlen (word.moved distance)) := by
  refine bindRegister fun first => bindRegister fun second => .ok ?_
  exact congrArg
    (fun target => reading [.register first, .register second, target])
    (scatteredTarget_moved ..)

theorem readConstant_moved :
    ReadsMoved distance (readConstant xlen word)
      (readConstant xlen (word.moved distance)) := by
  refine bindRegister fun destination => bindRegister fun source => ?_
  exact .bind _ fun constant => .ok rfl

theorem readShift_moved (bits : Nat) :
    ReadsMoved distance (readShift xlen bits word)
      (readShift xlen bits (word.moved distance)) := by
  refine bindRegister fun destination => bindRegister fun source => ?_
  exact .bind _ fun amount => .ok rfl

theorem readLoad_moved (file : RegisterFile) :
    ReadsMoved distance (readLoad xlen file word)
      (readLoad xlen file (word.moved distance)) := by
  refine .bind _ fun size => bindRegister fun destination => ?_
  refine .bind _ fun number => .bind _ fun base => ?_
  exact .bind _ fun displacement => .ok rfl

theorem readStore_moved (file : RegisterFile) :
    ReadsMoved distance (readStore xlen file word)
      (readStore xlen file (word.moved distance)) := by
  refine .bind _ fun size => bindRegister fun source => ?_
  exact .bind _ fun number => .bind _ fun base => .ok rfl

theorem readFence_moved :
    ReadsMoved distance (readFence word)
      (readFence (word.moved distance)) :=
  .bind _ fun _ => .bind _ fun _ => .ok rfl

theorem readControl_moved :
    ReadsMoved distance (readControl xlen word)
      (readControl xlen (word.moved distance)) := by
  refine bindRegister fun destination => .bind _ fun number => ?_
  exact bindRegister fun source => .ok rfl

theorem readControlConstant_moved :
    ReadsMoved distance (readControlConstant xlen word)
      (readControlConstant xlen (word.moved distance)) := by
  refine bindRegister fun destination => .bind _ fun number => ?_
  exact .bind _ fun constant => .ok rfl

theorem readFloat_moved :
    ReadsMoved distance (readFloat xlen word)
      (readFloat xlen (word.moved distance)) := by
  refine .bind _ fun bits => ?_
  split
  · exact .error _
  · exact bindThree fun _ _ _ => .ok rfl

theorem readMove_moved (destinations sources : RegisterFile) :
    ReadsMoved distance (readMove destinations sources word)
      (readMove destinations sources (word.moved distance)) :=
  bindRegister fun _ => bindRegister fun _ => .ok rfl

end Long

/-! ## Words of two bytes -/

section Short

/-- A register of a compressed word is no target. -/
theorem bindOperand
    {file : RegisterFile}
    {number : Nat}
    {here there : Operand → Read Reading}
    (rest :
      ∀ register,
        ReadsMoved distance (here (.register register))
          (there (.register register))) :
    ReadsMoved distance (registerOperand file number >>= here)
      (registerOperand file number >>= there) := by
  simp only [registerOperand, bind_map_left]
  exact .bind _ rest

/-- Memory that a compressed word refers to is no target. -/
theorem bindMemory
    {file : RegisterFile}
    {number size : Nat}
    {pieces : List BitPiece}
    {here there : Operand → Read Reading}
    (rest :
      ∀ reference,
        ReadsMoved distance (here (.memory reference))
          (there (.memory reference))) :
    ReadsMoved distance (memoryOperand file number pieces size word >>= here)
      (memoryOperand file number pieces size word >>= there) := by
  simp only [memoryOperand, bind_assoc, pure_bind]
  exact .bind _ fun base => rest _

theorem readShortAccess_moved
    (file : RegisterFile)
    (pieces : List BitPiece)
    (size : Nat) :
    ReadsMoved distance (readShortAccess xlen file pieces size word)
      (readShortAccess xlen file pieces size (word.moved distance)) := by
  refine .bind _ fun short => bindOperand fun data => ?_
  exact bindMemory fun reference => .ok rfl

theorem readStackLoad_moved
    (file : RegisterFile)
    (zeroReserved : Bool)
    (pieces : List BitPiece)
    (size : Nat) :
    ReadsMoved distance
      (readStackLoad xlen file zeroReserved pieces size word)
      (readStackLoad xlen file zeroReserved pieces size
        (word.moved distance)) := by
  refine .bind _ fun short => .ite (.error _) ?_
  exact bindOperand fun destination => bindMemory fun reference => .ok rfl

theorem readStackStore_moved
    (file : RegisterFile)
    (pieces : List BitPiece)
    (size : Nat) :
    ReadsMoved distance (readStackStore xlen file pieces size word)
      (readStackStore xlen file pieces size (word.moved distance)) := by
  refine .bind _ fun short => bindOperand fun source => ?_
  exact bindMemory fun reference => .ok rfl

theorem readStackAddress_moved :
    ReadsMoved distance (readStackAddress xlen word)
      (readStackAddress xlen (word.moved distance)) := by
  refine .bind _ fun short => bindOperand fun destination => ?_
  exact bindOperand fun pointer => .ok rfl

theorem readStackChange_moved :
    ReadsMoved distance (readStackChange xlen word)
      (readStackChange xlen (word.moved distance)) := by
  refine .bind _ fun short => .ite (.error _) ?_
  exact bindOperand fun pointer => .ok rfl

theorem readShortAdd_moved :
    ReadsMoved distance (readShortAdd xlen word)
      (readShortAdd xlen (word.moved distance)) :=
  .bind _ fun _ => bindOperand fun _ => .ok rfl

theorem readShortAddWord_moved :
    ReadsMoved distance (readShortAddWord xlen word)
      (readShortAddWord xlen (word.moved distance)) := by
  refine .bind _ fun short => .ite (.error _) ?_
  exact bindOperand fun destination => .ok rfl

theorem readShortLoadConstant_moved :
    ReadsMoved distance (readShortLoadConstant xlen word)
      (readShortLoadConstant xlen (word.moved distance)) :=
  .bind _ fun _ => bindOperand fun _ => .ok rfl

theorem readShortUpper_moved :
    ReadsMoved distance (readShortUpper xlen word)
      (readShortUpper xlen (word.moved distance)) := by
  refine .bind _ fun short => .ite (.error _) ?_
  exact bindOperand fun destination => .ok rfl

theorem readShortShift_moved :
    ReadsMoved distance (readShortShift xlen word)
      (readShortShift xlen (word.moved distance)) := by
  refine .bind _ fun short => .bind _ fun amount => ?_
  exact bindOperand fun destination => .ok rfl

theorem readShortShiftLeft_moved :
    ReadsMoved distance (readShortShiftLeft xlen word)
      (readShortShiftLeft xlen (word.moved distance)) := by
  refine .bind _ fun short => .bind _ fun amount => ?_
  exact bindOperand fun destination => .ok rfl

theorem readShortAnd_moved :
    ReadsMoved distance (readShortAnd xlen word)
      (readShortAnd xlen (word.moved distance)) :=
  .bind _ fun _ => bindOperand fun _ => .ok rfl

theorem readShortArithmetic_moved :
    ReadsMoved distance (readShortArithmetic xlen word)
      (readShortArithmetic xlen (word.moved distance)) := by
  refine .bind _ fun short => bindOperand fun destination => ?_
  exact bindOperand fun source => .ok rfl

theorem readShortJump_moved :
    ReadsMoved distance (readShortJump word)
      (readShortJump (word.moved distance)) := by
  refine .bind _ fun short => .ok ?_
  exact congrArg (fun target => reading [target]) (scatteredTarget_moved ..)

theorem readShortBranch_moved :
    ReadsMoved distance (readShortBranch xlen word)
      (readShortBranch xlen (word.moved distance)) := by
  refine .bind _ fun short => bindOperand fun source => .ok ?_
  exact congrArg (fun target => reading [.register source, target])
    (scatteredTarget_moved ..)

theorem readShortJumpRegister_moved :
    ReadsMoved distance (readShortJumpRegister xlen word)
      (readShortJumpRegister xlen (word.moved distance)) := by
  refine .bind _ fun short => .ite (.error _) ?_
  exact bindOperand fun target => .ok rfl

theorem readShortMove_moved :
    ReadsMoved distance (readShortMove xlen word)
      (readShortMove xlen (word.moved distance)) := by
  refine .bind _ fun short => bindOperand fun destination => ?_
  exact bindOperand fun source => .ok rfl

end Short

/-! ## The instruction set -/

/-- A moved word is read the same, but for targets. -/
theorem Format.read_moved (format : Format) :
    ReadsMoved distance (format.read xlen word)
      (format.read xlen (word.moved distance)) := by
  cases format with
  | upper => exact readUpper_moved
  | jump => exact readJump_moved
  | jumpRegister | constant => exact readConstant_moved
  | branch => exact readBranch_moved
  | load | floatLoad => exact readLoad_moved _
  | store | floatStore => exact readStore_moved _
  | shift | shiftWord => exact readShift_moved _
  | registers =>
      simp only [Format.read, map_eq_pure_bind]
      exact bindThree fun _ _ _ => .ok rfl
  | fence => exact readFence_moved
  | bare => exact .ok rfl
  | control => exact readControl_moved
  | controlConstant => exact readControlConstant_moved
  | floatArithmetic => exact readFloat_moved
  | floatToInteger | integerToFloat => exact readMove_moved _ _
  | stackAddress => exact readStackAddress_moved
  | shortLoadWord | shortLoadDouble | shortStoreWord | shortStoreDouble
  | shortFloatLoadWord | shortFloatLoadDouble
  | shortFloatStoreWord | shortFloatStoreDouble =>
      exact readShortAccess_moved ..
  | shortAdd => exact readShortAdd_moved
  | shortAddWord => exact readShortAddWord_moved
  | shortJump => exact readShortJump_moved
  | shortLoadConstant => exact readShortLoadConstant_moved
  | stackChange => exact readStackChange_moved
  | shortUpper => exact readShortUpper_moved
  | shortShift => exact readShortShift_moved
  | shortAnd => exact readShortAnd_moved
  | shortArithmetic => exact readShortArithmetic_moved
  | shortBranch => exact readShortBranch_moved
  | shortShiftLeft => exact readShortShiftLeft_moved
  | stackLoadWord | stackLoadDouble
  | stackFloatLoadWord | stackFloatLoadDouble =>
      exact readStackLoad_moved ..
  | shortJumpRegister => exact readShortJumpRegister_moved
  | shortMove | shortAddRegister => exact readShortMove_moved
  | stackStoreWord | stackStoreDouble
  | stackFloatStoreWord | stackFloatStoreDouble =>
      exact readStackStore_moved ..

/-- Pseudo-instructions do not ask for a target. -/
theorem keepsTests_moved (distance : Address) :
    KeepsTests (Operand.moved distance) where
  isRegister_eq operand := operand.isRegister_moved distance
  isConstant_eq operand := operand.isConstant_moved distance
  isControl_eq operand _ := by cases operand <;> rfl

theorem moves (xlen : Xlen) (distance : Address) :
    (isa xlen).Moves distance where
  reads := by
    intro number word
    dsimp only [isa]
    cases Format.ofId? number with
    | none => exact .error _
    | some format => exact format.read_moved
  reduces := (keepsTests_moved distance).commutes_of_mem
  completes _ := rfl
  leads _ _ _ := rfl

end MachineCode.RiscV
