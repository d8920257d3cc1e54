import MachineCode.Arm64.InstructionSet
import MachineCode.Proofs.Moved

/-!
# Arm64 words that are moved

Targets are relative to the instruction, or to the page of 4096 bytes that it
is in. A word that is moved by whole pages is therefore the same instruction,
with its targets moved (`moves`). No preferred form looks at a target.
-/

namespace MachineCode.Arm64

variable {distance : Address}

/-! ## Formats -/

section Formats

variable {word : Word}

/-- A register that is read is no target. -/
theorem bindRegister
    {file : RegisterFile}
    {start : Nat}
    {word : Word}
    {here there : Operand → Read Reading}
    (rest :
      ∀ register,
        ReadsMoved distance (here (.register register))
          (there (.register register))) :
    ReadsMoved distance (readRegister file start word >>= here)
      (readRegister file start word >>= there) := by
  simp only [readRegister, bind_assoc, pure_bind]
  exact .bind _ fun _ => .bind _ rest

/-- A target that is counted in words from the instruction. -/
theorem bindTarget
    {start length : Nat}
    {word : Word}
    {here there : Operand → Read Reading}
    (rest :
      ∀ target,
        ReadsMoved distance (here target) (there (target.moved distance))) :
    ReadsMoved distance (readTarget start length word >>= here)
      (readTarget start length (word.moved distance) >>= there) := by
  simp only [readTarget, bind_assoc, pure_bind]
  refine .bind _ fun span => ?_
  have moved :=
    Operand.relativeField_add_zero distance span length 4 word.address
  rw [Word.moved, moved]
  exact rest _

theorem readNearAddress_moved (pages : 2 ^ 12 ∣ distance.toNat) :
    ReadsMoved distance (readNearAddress word)
      (readNearAddress (word.moved distance)) := by
  refine .bind _ fun paged => ?_
  refine bindRegister fun destination => ?_
  refine .bind _ fun high => .bind _ fun low => .ok ?_
  cases paged with
  | true =>
      exact congrArg (fun target => reading [.register destination, target])
        (Operand.relativeField_add pages (by decide) ..)
  | false =>
      exact congrArg (fun target => reading [.register destination, target])
        (Operand.relativeField_add_zero ..)

theorem readAddConstant_moved :
    ReadsMoved distance (readAddConstant word)
      (readAddConstant (word.moved distance)) := by
  refine .bind _ fun wide => .bind _ fun setsFlags => ?_
  refine .bind _ fun shifted => .bind _ fun constant => ?_
  refine bindRegister fun source => ?_
  refine bindRegister fun destination => .ok ?_
  cases shifted <;> rfl

theorem readLogicalConstant_moved :
    ReadsMoved distance (readLogicalConstant word)
      (readLogicalConstant (word.moved distance)) := by
  refine .bind _ fun wide => .bind _ fun operation => .bind _ fun n => ?_
  refine .bind _ fun immr => .bind _ fun imms => ?_
  refine bindRegister fun source => ?_
  refine bindRegister fun destination => ?_
  refine .ite (.error _) ?_
  split
  · exact .error _
  · exact .ok rfl

theorem readWideMove_moved :
    ReadsMoved distance (readWideMove word)
      (readWideMove (word.moved distance)) := by
  refine .bind _ fun wide => .bind _ fun place => .bind _ fun constant => ?_
  refine bindRegister fun destination => ?_
  refine .ite (.error _) (.ok ?_)
  split <;> rfl

theorem readBitfield_moved :
    ReadsMoved distance (readBitfield word)
      (readBitfield (word.moved distance)) := by
  refine .bind _ fun wide => .bind _ fun n => ?_
  refine .bind _ fun immr => .bind _ fun imms => ?_
  refine bindRegister fun source => ?_
  refine bindRegister fun destination => ?_
  exact .ite (.error _) (.ite (.error _) (.ok rfl))

theorem readExtract_moved :
    ReadsMoved distance (readExtract word)
      (readExtract (word.moved distance)) := by
  refine .bind _ fun wide => .bind _ fun n => ?_
  refine bindRegister fun low => .bind _ fun span => ?_
  refine bindRegister fun high => ?_
  refine bindRegister fun destination => ?_
  exact .ite (.error _) (.ite (.error _) (.ok rfl))

theorem readBranch_moved :
    ReadsMoved distance (readBranch word)
      (readBranch (word.moved distance)) :=
  bindTarget fun _ => .ok rfl

theorem readConditionalBranch_moved :
    ReadsMoved distance (readConditionalBranch word)
      (readConditionalBranch (word.moved distance)) := by
  refine bindTarget fun target => ?_
  exact .bind _ fun code => .ok rfl

theorem readCompareBranch_moved :
    ReadsMoved distance (readCompareBranch word)
      (readCompareBranch (word.moved distance)) := by
  refine .bind _ fun wide => bindTarget fun target => ?_
  exact bindRegister fun source => .ok rfl

theorem readTestBranch_moved :
    ReadsMoved distance (readTestBranch word)
      (readTestBranch (word.moved distance)) := by
  refine .bind _ fun high => .bind _ fun low => ?_
  refine bindTarget fun target => ?_
  exact bindRegister fun source => .ok rfl

theorem readBranchRegister_moved :
    ReadsMoved distance (readBranchRegister word)
      (readBranchRegister (word.moved distance)) :=
  bindRegister fun _ => .ok rfl

theorem readCode_moved (length : Nat) :
    ReadsMoved distance (readCode length word)
      (readCode length (word.moved distance)) :=
  .bind _ fun _ => .ok rfl

theorem readFromSystem_moved :
    ReadsMoved distance (readFromSystem word)
      (readFromSystem (word.moved distance)) := by
  simp only [readFromSystem, readSystemMove, bind_assoc, pure_bind]
  exact .bind _ fun encoding => bindRegister fun data => .ok rfl

theorem readToSystem_moved :
    ReadsMoved distance (readToSystem word)
      (readToSystem (word.moved distance)) := by
  simp only [readToSystem, readSystemMove, bind_assoc, pure_bind]
  exact .bind _ fun encoding => bindRegister fun data => .ok rfl

theorem readLiteral_moved :
    ReadsMoved distance (readLiteral word)
      (readLiteral (word.moved distance)) := by
  refine .bind _ fun size => .bind _ fun span => ?_
  refine bindRegister fun data => .ok ?_
  exact congrArg (fun target => reading [.register data, target])
    (Operand.relativeField_add_zero ..)

theorem readUnsignedOffset_moved :
    ReadsMoved distance (readUnsignedOffset word)
      (readUnsignedOffset (word.moved distance)) := by
  refine .bind _ fun size => .bind _ fun operation => ?_
  refine .bind _ fun offset => .bind _ fun base => ?_
  exact bindRegister fun data => .ok rfl

theorem readIndexed_moved :
    ReadsMoved distance (readIndexed word)
      (readIndexed (word.moved distance)) := by
  refine .bind _ fun size => .bind _ fun operation => ?_
  refine .bind _ fun offset => .bind _ fun mode => ?_
  refine .bind _ fun baseNumber => .bind _ fun dataNumber => ?_
  exact .bind _ fun base => .bind _ fun data => .ok rfl

theorem readRegisterOffset_moved :
    ReadsMoved distance (readRegisterOffset word)
      (readRegisterOffset (word.moved distance)) := by
  refine .bind _ fun size => .bind _ fun operation => ?_
  refine .bind _ fun index => .bind _ fun option => ?_
  refine .bind _ fun scaled => .bind _ fun base => ?_
  refine bindRegister fun data => ?_
  split
  · exact .error _
  · exact .bind _ fun index => .ok rfl

theorem readPair_moved :
    ReadsMoved distance (readPair word)
      (readPair (word.moved distance)) := by
  refine .bind _ fun size => .ite (.error _) ?_
  refine .bind _ fun mode => .bind _ fun load => .bind _ fun offset => ?_
  refine .bind _ fun second => .bind _ fun base => .bind _ fun first => ?_
  exact .bind _ fun _ => .bind _ fun _ => .bind _ fun _ => .ok rfl

theorem readExclusive_moved :
    ReadsMoved distance (readExclusive word)
      (readExclusive (word.moved distance)) := by
  refine .bind _ fun wide => .bind _ fun _ => .bind _ fun base => ?_
  exact bindRegister fun data => .ok rfl

theorem readExclusiveStore_moved :
    ReadsMoved distance (readExclusiveStore word)
      (readExclusiveStore (word.moved distance)) := by
  refine .bind _ fun wide => bindRegister fun outcome => ?_
  exact .bind _ fun base => bindRegister fun data => .ok rfl

theorem readStructures_moved (updates : Bool) :
    ReadsMoved distance (readStructures updates word)
      (readStructures updates (word.moved distance)) := by
  refine .bind _ fun whole => .bind _ fun index => ?_
  refine .bind _ fun operation => .bind _ fun size => ?_
  refine .bind _ fun base => .bind _ fun first => ?_
  split
  · exact .error _
  · exact .bind _ fun list => .ite (.bind _ fun _ => .ok rfl) (.ok rfl)

theorem readShifted_moved (rotates : Bool) :
    ReadsMoved distance (readShifted rotates word)
      (readShifted rotates (word.moved distance)) := by
  refine .bind _ fun wide => .bind _ fun kind => ?_
  refine .bind _ fun second => .bind _ fun amount => ?_
  refine bindRegister fun first => ?_
  refine bindRegister fun destination => ?_
  refine .ite (.error _) (.ite (.error _) (.bind _ fun source => .ok ?_))
  rw [shiftedOperand]
  split <;> rfl

theorem readSelect_moved :
    ReadsMoved distance (readSelect word)
      (readSelect (word.moved distance)) := by
  refine .bind _ fun wide => bindRegister fun second => ?_
  refine .bind _ fun code => bindRegister fun first => ?_
  exact bindRegister fun destination => .ok rfl

theorem readSources_moved (three : Bool) :
    ReadsMoved distance (readSources three word)
      (readSources three (word.moved distance)) := by
  refine .bind _ fun wide => bindRegister fun second => ?_
  refine bindRegister fun third => ?_
  refine bindRegister fun first => ?_
  refine bindRegister fun destination => .ok ?_
  cases three <;> rfl

theorem readFloatConstant_moved :
    ReadsMoved distance (readFloatConstant word)
      (readFloatConstant (word.moved distance)) := by
  refine .bind _ fun file => .bind _ fun constant => ?_
  exact bindRegister fun destination => .ok rfl

theorem readFloat_moved :
    ReadsMoved distance (readFloat word)
      (readFloat (word.moved distance)) := by
  refine .bind _ fun file => bindRegister fun second => ?_
  refine bindRegister fun first => ?_
  exact bindRegister fun destination => .ok rfl

/-- A word that is moved by whole pages is read the same, but for targets. -/
theorem Format.read_moved
    (pages : 2 ^ 12 ∣ distance.toNat)
    (format : Format) :
    ReadsMoved distance (format.read word)
      (format.read (word.moved distance)) := by
  cases format with
  | nearAddress => exact readNearAddress_moved pages
  | addConstant => exact readAddConstant_moved
  | logicalConstant => exact readLogicalConstant_moved
  | wideMove => exact readWideMove_moved
  | bitfield => exact readBitfield_moved
  | extract => exact readExtract_moved
  | branch => exact readBranch_moved
  | conditionalBranch => exact readConditionalBranch_moved
  | compareBranch => exact readCompareBranch_moved
  | testBranch => exact readTestBranch_moved
  | branchRegister => exact readBranchRegister_moved
  | bare => exact .ok rfl
  | exception | hint => exact readCode_moved _
  | fromSystem => exact readFromSystem_moved
  | toSystem => exact readToSystem_moved
  | literal => exact readLiteral_moved
  | pair => exact readPair_moved
  | unsignedOffset => exact readUnsignedOffset_moved
  | indexed => exact readIndexed_moved
  | registerOffset => exact readRegisterOffset_moved
  | exclusive => exact readExclusive_moved
  | exclusiveStore => exact readExclusiveStore_moved
  | structures | structuresUpdating => exact readStructures_moved _
  | logicalRegister | addRegister => exact readShifted_moved _
  | select => exact readSelect_moved
  | twoSources | threeSources => exact readSources_moved _
  | floatConstant => exact readFloatConstant_moved
  | floatArithmetic => exact readFloat_moved

end Formats

/-! ## Preferred forms -/

@[simp]
theorem isZero_moved (operand : Operand) :
    isZero (operand.moved distance) = isZero operand :=
  Operand.isRegister_moved ..

@[simp]
theorem isStackPointer_moved (operand : Operand) :
    isStackPointer (operand.moved distance) = isStackPointer operand :=
  Operand.isRegister_moved ..

theorem moves_stackMove : Alias.Moves distance stackMove := by
  intro operands
  match operands with
  | [destination, source, constant] =>
      exact Alias.commutes_ite (by simp) rfl
  | [] | [_] | [_, _] | _ :: _ :: _ :: _ :: _ => rfl

theorem moves_withoutDestination :
    Alias.Moves distance withoutDestination := by
  intro operands
  match operands with
  | [] => rfl
  | destination :: sources =>
      exact Alias.commutes_ite (isZero_moved destination) rfl

theorem moves_withoutFirstSource :
    Alias.Moves distance withoutFirstSource := by
  intro operands
  match operands with
  | [] | [_] => rfl
  | destination :: first :: rest =>
      exact Alias.commutes_ite (isZero_moved first) rfl

theorem moves_registerMove : Alias.Moves distance registerMove := by
  intro operands
  match operands with
  | [destination, first, source] =>
      cases source with
      | register source => exact Alias.commutes_ite (isZero_moved first) rfl
      | _ => rfl
  | [] | [_] | [_, _] => rfl
  | _ :: _ :: third :: _ :: _ => cases third <;> rfl

theorem moves_withoutAddend : Alias.Moves distance withoutAddend := by
  intro operands
  match operands with
  | [destination, first, second, addend] =>
      exact Alias.commutes_ite (isZero_moved addend) rfl
  | [] | [_] | [_, _] | [_, _, _] | _ :: _ :: _ :: _ :: _ :: _ => rfl

theorem moves_logicalMove : Alias.Moves distance logicalMove := by
  intro operands
  match operands with
  | [destination, first, pattern] =>
      cases pattern with
      | immediate pattern => exact Alias.commutes_ite (by simp) rfl
      | _ => rfl
  | [] | [_] | [_, _] => rfl
  | _ :: _ :: third :: _ :: _ => cases third <;> rfl

theorem wideMoveParts?_moved (operands : List Operand) :
    wideMoveParts? (operands.map (Operand.moved distance)) =
      (wideMoveParts? operands).map fun (destination, parts) =>
        (destination.moved distance, parts) := by
  match operands with
  | [destination, constant] => cases constant <;> rfl
  | [destination, constant, shift] => cases constant <;> cases shift <;> rfl
  | [] | [_] => rfl
  | _ :: second :: third :: _ :: _ => cases second <;> cases third <;> rfl

theorem moves_wideMove : Alias.Moves distance wideMove := by
  intro operands
  rw [wideMove, wideMove, wideMoveParts?_moved]
  cases wideMoveParts? operands with
  | none => rfl
  | some parts =>
      simp only [Option.map_some]
      split <;> rfl

theorem moves_invertedMove : Alias.Moves distance invertedMove := by
  intro operands
  rw [invertedMove, invertedMove, wideMoveParts?_moved]
  cases wideMoveParts? operands with
  | none => rfl
  | some parts =>
      simp only [Option.map_some, Operand.register?_moved]
      split
      · rfl
      split
      · rfl
      split <;> rfl

theorem ofOperands?_moved (operands : List Operand) :
    Bitfield.ofOperands? (operands.map (Operand.moved distance)) =
      (Bitfield.ofOperands? operands).map fun field =>
        { field with destination := field.destination.moved distance } := by
  match operands with
  | [] | [_] => rfl
  | [_, source] => cases source <;> rfl
  | [_, source, immr] => cases source <;> cases immr <;> rfl
  | [_, source, immr, imms] =>
      cases source <;> cases immr <;> cases imms <;> rfl
  | _ :: source :: immr :: imms :: _ :: _ =>
      cases source <;> cases immr <;> cases imms <;> rfl

/-- The conditions and constants of a bitfield move are about its numbers. -/
theorem moves_withConstants
    {condition : Bitfield → Bool}
    {constants : Bitfield → List Nat}
    (sameCondition :
      ∀ field destination,
        condition { field with destination := destination } =
          condition field)
    (sameConstants :
      ∀ field destination,
        constants { field with destination := destination } =
          constants field) :
    Alias.Moves distance (Bitfield.withConstants condition constants) := by
  intro operands
  rw [Bitfield.withConstants, Bitfield.withConstants, ofOperands?_moved]
  cases Bitfield.ofOperands? operands with
  | none => rfl
  | some field =>
      have small :
          ((constants field).map smallConstant).map (Operand.moved distance) =
            (constants field).map smallConstant := by
        rw [List.map_map]
        rfl
      apply Alias.commutes_ite (sameCondition field _)
      rw [sameConstants, List.map_cons, List.map_cons, small]
      rfl

theorem moves_extension (condition : Register → Bool) (imms : Nat) :
    Alias.Moves distance (Bitfield.extension condition imms) := by
  intro operands
  rw [Bitfield.extension, Bitfield.extension, ofOperands?_moved]
  cases Bitfield.ofOperands? operands with
  | none => rfl
  | some field => exact Alias.commutes_ite rfl rfl

theorem moves_rotation : Alias.Moves distance rotation := by
  intro operands
  match operands with
  | [destination, high, low, span] =>
      exact Alias.commutes_ite (Operand.agrees_moved distance high low) rfl
  | [] | [_] | [_, _] | [_, _, _] | _ :: _ :: _ :: _ :: _ :: _ => rfl

theorem moves_conditionalSet : Alias.Moves distance conditionalSet := by
  intro operands
  match operands with
  | [destination, first, second, condition] =>
      cases condition with
      | condition condition => exact Alias.commutes_ite (by simp) rfl
      | _ => rfl
  | [] | [_] | [_, _] | [_, _, _] => rfl
  | _ :: _ :: _ :: fourth :: _ :: _ => cases fourth <;> rfl

theorem moves_conditionalChange : Alias.Moves distance conditionalChange := by
  intro operands
  match operands with
  | [destination, first, second, condition] =>
      cases condition with
      | condition condition => exact Alias.commutes_ite (by simp) rfl
      | _ => rfl
  | [] | [_] | [_, _] | [_, _, _] => rfl
  | _ :: _ :: _ :: fourth :: _ :: _ => cases fourth <;> rfl

theorem moves_linkReturn : Alias.Moves distance linkReturn := by
  intro operands
  match operands with
  | [target] =>
      exact Alias.commutes_ite (target.isRegister_moved distance _) rfl
  | [] | _ :: _ :: _ => rfl

theorem moves_hintOf (code : Int) : Alias.Moves distance (hintOf code) := by
  intro operands
  match operands with
  | [operand] =>
      exact Alias.commutes_ite (operand.isConstant_moved distance _) rfl
  | [] | _ :: _ :: _ => rfl

theorem moves_shiftLeft : Alias.Moves distance Bitfield.shiftLeft :=
  moves_withConstants (fun _ _ => rfl) fun _ _ => rfl

theorem moves_shiftRight : Alias.Moves distance Bitfield.shiftRight :=
  moves_withConstants (fun _ _ => rfl) fun _ _ => rfl

theorem moves_insertion : Alias.Moves distance Bitfield.insertion :=
  moves_withConstants (fun _ _ => rfl) fun _ _ => rfl

theorem moves_extraction : Alias.Moves distance Bitfield.extraction :=
  moves_withConstants (fun _ _ => rfl) fun _ _ => rfl

theorem moves_of_mem :
    ∀ rule ∈ preferredForms, Alias.Moves distance rule.reduce := by
  simp only [preferredForms, preferred, List.forall_mem_cons]
  exact
    ⟨moves_stackMove,
      moves_withoutDestination,
      moves_withoutDestination,
      moves_withoutDestination,
      moves_logicalMove,
      moves_wideMove,
      moves_invertedMove,
      moves_extension _ _,
      moves_extension _ _,
      moves_extension _ _,
      moves_shiftRight,
      moves_insertion,
      moves_extraction,
      moves_extension _ _,
      moves_extension _ _,
      moves_shiftLeft,
      moves_shiftRight,
      moves_insertion,
      moves_extraction,
      moves_insertion,
      moves_extraction,
      moves_rotation,
      moves_linkReturn,
      moves_hintOf _,
      moves_hintOf _,
      moves_hintOf _,
      moves_hintOf _,
      moves_hintOf _,
      moves_hintOf _,
      moves_registerMove,
      moves_withoutFirstSource,
      moves_withoutDestination,
      moves_withoutDestination,
      moves_withoutDestination,
      moves_withoutFirstSource,
      moves_withoutFirstSource,
      moves_conditionalSet,
      moves_conditionalChange,
      moves_conditionalSet,
      moves_conditionalChange,
      moves_conditionalChange,
      moves_withoutAddend,
      moves_withoutAddend,
      fun _ => rfl,
      fun _ => rfl,
      fun _ => rfl,
      fun _ => rfl,
      by simp⟩

/-! ## The instruction set -/

/-- No system register is a target. -/
theorem namesPrivileged_moved (operand : Operand) :
    namesPrivileged (operand.moved distance) = namesPrivileged operand := by
  cases operand <;> rfl

theorem completeDetail_moved (detail : Detail) :
    completeDetail (Detail.moved distance detail) =
      (completeDetail detail).moved distance := by
  have privileged :
      ((Detail.moved distance detail).operands.any fun accessed =>
          namesPrivileged accessed.operand) =
        detail.operands.any fun accessed =>
          namesPrivileged accessed.operand := by
    rw [Detail.moved, Detail.mapOperands, List.any_map]
    exact congrArg (List.any detail.operands)
      (funext fun accessed => namesPrivileged_moved accessed.operand)
  rw [completeDetail, completeDetail, privileged]
  rfl

theorem moves (pages : 2 ^ 12 ∣ distance.toNat) : isa.Moves distance where
  reads := by
    intro number word
    dsimp only [isa]
    cases Format.ofId? number with
    | none => exact .error _
    | some format => exact format.read_moved pages
  reduces := moves_of_mem
  completes := completeDetail_moved
  leads _ _ _ := rfl

end MachineCode.Arm64
