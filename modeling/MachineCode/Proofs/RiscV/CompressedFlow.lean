import MachineCode.Proofs.ControlFlow
import MachineCode.Proofs.RiscV.Compressed
import MachineCode.Proofs.RiscV.Jumps

/-!
# Compressed instructions and where control goes

A compressed word has no other preferred form, while its expansion is put into
one. For all rows of the listing but those of jumps and branches, control goes
on to the next instruction on both sides.
-/

namespace MachineCode

/-- The same flow of control with other addresses to go on at. -/
def ControlFlow.mapNext (move : Address → Address) :
    ControlFlow → ControlFlow
  | .conditionalBranch target condition fallthrough =>
    .conditionalBranch target condition (move fallthrough)
  | .call target returnAddress => .call target (move returnAddress)
  | .indirectCall returnAddress => .indirectCall (move returnAddress)
  | flow => flow

/-- Whether control goes on to the next instruction. -/
def Operation.isSequential : Operation → Bool
  | .jump | .conditionalJump | .call | .ret | .syscall | .halt => false
  | _ => true

theorem Engine.flow_of_isSequential
    {info : OpcodeInfo}
    (sequential : info.operation.isSequential)
    (operands : List Operand)
    (specifics : Specifics)
    (address : Address)
    (size : Nat) :
    flow info operands specifics address size = .sequential := by
  unfold flow
  cases isOperation : info.operation <;>
    first | rfl | (rw [isOperation] at sequential; cases sequential)

namespace RiscV

namespace Compressed

/-- Where control goes after a compressed word, and after its expansion. -/
structure Flows
    (xlen : Xlen)
    (word : Word)
    (expansion : Expansion)
    (operands : List Operand)
    (short long : ControlFlow) :
    Prop where
  short :
    (isa xlen).flowOf? ⟨expansion.short.id, operands⟩ (.riscV none)
        word.address 2 =
      some short
  long :
    (isa xlen).flowOf?
        (Alias.canonicalize pseudos
          ⟨expansion.long.id,
            expansion.operands xlen word.address word.value⟩)
        (.riscV none) word.address 4 =
      some long

/-- The row of jumps to a register that link nothing. -/
def jumpRow : Expansion :=
  jumpingRegister .cJr [.field 12 1 0, .field 2 5 0] zeroRegister .zero

section Rows

variable
  {xlen : Xlen}
  {word : Word}
  {operands : List Operand}

/-- A jump that links nothing is put into its preferred form. -/
theorem flows_j
    (means :
      List.Forall₂ (Part.Means xlen word)
        (jumping .cJ 0b101 zeroRegister .zero).keptParts operands) :
    ∃ target,
      Flows xlen word (jumping .cJ 0b101 zeroRegister .zero) operands
        (.branch target) (.branch target) := by
  rcases means with _ | ⟨target, ⟨⟩⟩
  cases target
  exact ⟨_, rfl, rfl⟩

theorem flows_jal
    (means :
      List.Forall₂ (Part.Means xlen word)
        (jumping .cJal 0b001 linkRegister .link).keptParts operands) :
    ∃ target,
      Flows xlen word (jumping .cJal 0b001 linkRegister .link) operands
        (.call target (word.address.advance 2))
        (.call target (word.address.advance 4)) := by
  rcases means with _ | ⟨target, ⟨⟩⟩
  cases target
  exact ⟨_, rfl, rfl⟩

theorem flows_beqz
    (means :
      List.Forall₂ (Part.Means xlen word)
        (comparingZero .cBeqz 0b110 .beq).keptParts operands) :
    ∃ target,
      Flows xlen word (comparingZero .cBeqz 0b110 .beq) operands
        (.conditionalBranch target .equal (word.address.advance 2))
        (.conditionalBranch target .equal (word.address.advance 4)) := by
  rcases means with _ | ⟨source, _ | ⟨target, ⟨⟩⟩⟩
  cases source
  cases target
  exact ⟨_, rfl, rfl⟩

theorem flows_bnez
    (means :
      List.Forall₂ (Part.Means xlen word)
        (comparingZero .cBnez 0b111 .bne).keptParts operands) :
    ∃ target,
      Flows xlen word (comparingZero .cBnez 0b111 .bne) operands
        (.conditionalBranch target .notEqual (word.address.advance 2))
        (.conditionalBranch target .notEqual (word.address.advance 4)) := by
  rcases means with _ | ⟨source, _ | ⟨target, ⟨⟩⟩⟩
  cases source
  cases target
  exact ⟨_, rfl, rfl⟩

theorem flows_jalr
    {others : List Guard}
    (means :
      List.Forall₂ (Part.Means xlen word)
        (jumpingRegister .cJalr others linkRegister .link).keptParts
        operands) :
    Flows xlen word (jumpingRegister .cJalr others linkRegister .link)
      operands (.indirectCall (word.address.advance 2))
      (.indirectCall (word.address.advance 4)) := by
  rcases means with _ | ⟨source, ⟨⟩⟩
  cases source
  exact ⟨rfl, rfl⟩

/-- A jump to the link register alone has another preferred form. -/
theorem flows_jr
    (means :
      List.Forall₂ (Part.Means xlen word) jumpRow.keptParts operands) :
    Flows xlen word jumpRow operands (.indirectBranch [])
      (if bitField word.value 7 5 = linkRegister then .ret
        else .indirectBranch []) := by
  rcases means with _ | ⟨source, ⟨⟩⟩
  cases source
  refine ⟨rfl, ?_⟩
  have form :
      (⟨jumpRow.long.id,
          jumpRow.operands xlen word.address word.value⟩ : Form) =
        ⟨Opcode.jalr.id,
          [Bank.integer.operand xlen zeroRegister,
            Bank.integer.operand xlen (bitField word.value 7 5),
            .signed 0 12]⟩ :=
    rfl
  rw [form, canonicalize_jalr_operands, if_pos ⟨rfl, rfl⟩]
  split <;> rfl

/-- Whether control goes on to the next instruction on both sides. -/
def isSequential (expansion : Expansion) : Bool :=
  expansion.short.info.operation.isSequential &&
    expansion.long.info.operation.isSequential &&
    pseudos.all fun rule =>
      rule.opcode ≠ expansion.long.id ||
        (Opcode.ofId? rule.preferred).any fun shown =>
          shown.info.operation.isSequential

theorem flows_of_isSequential
    {expansion : Expansion}
    (sequential : isSequential expansion)
    (operands : List Operand) :
    Flows xlen word expansion operands .sequential .sequential := by
  simp only [isSequential, Bool.and_eq_true] at sequential
  rcases sequential with ⟨⟨short, long⟩, rules⟩
  have flow_id :
      ∀ (opcode : Opcode) (operands : List Operand) (size : Nat),
        opcode.info.operation.isSequential →
          (isa xlen).flowOf? ⟨opcode.id, operands⟩ (.riscV none)
              word.address size =
            some .sequential := by
    intro opcode operands size goesOn
    simp [Isa.flowOf?, isa, Engine.flow_of_isSequential goesOn]
  refine ⟨flow_id _ _ _ short, ?_⟩
  rcases
      Alias.canonicalize_eq_or_exists pseudos
        ⟨expansion.long.id,
          expansion.operands xlen word.address word.value⟩ with
    unchanged | ⟨rule, listed, applies⟩
  · rw [unchanged]
    exact flow_id _ _ _ long
  · rcases Alias.exists_of_form? applies with ⟨own, reduced, -, result⟩
    have checked := List.all_eq_true.mp rules rule listed
    rw [Bool.or_eq_true, decide_eq_true_eq] at checked
    rcases (Option.any_eq_true _ _).mp (checked.resolve_left (· own)) with
      ⟨shown, named, goesOn⟩
    rw [result]
    simp [Isa.flowOf?, isa, named, Engine.flow_of_isSequential goesOn]

end Rows

/-- The jumps and branches of the listing. -/
def transfers (xlen : Xlen) : List Expansion :=
  [jumping .cJ 0b101 zeroRegister .zero,
    comparingZero .cBeqz 0b110 .beq,
    comparingZero .cBnez 0b111 .bne,
    jumpRow,
    jumpingRegister .cJalr [.field 12 1 1, .field 2 5 0, .otherField 7 5 0]
      linkRegister .link] ++
    if xlen = .rv32 then [jumping .cJal 0b001 linkRegister .link] else []

theorem filter_expansions (xlen : Xlen) :
    ((expansions xlen).filter fun expansion => !isSequential expansion) =
      transfers xlen := by
  cases xlen <;> rfl

/-- The parcel of a jump to the link register. -/
def returnParcel : Nat :=
  0x8082

theorem expansion?_returnParcel (xlen : Xlen) :
    expansion? xlen returnParcel = some jumpRow := by
  cases xlen <;> rfl

/-- Only one parcel is a jump to the link register that links nothing. -/
theorem eq_returnParcel
    {xlen : Xlen}
    {word : Word}
    (two : word.size = 2)
    (expands : expansion? xlen word.value = some jumpRow)
    (returns : bitField word.value 7 5 = linkRegister) :
    word.value = returnParcel := by
  have small := word.value_lt
  rw [Word.size] at two
  rw [two] at small
  have applies := List.find?_some expands
  simp only [jumpRow, jumpingRegister, inQuadrant, Expansion.applies,
    Guard.holds, List.all_cons, List.all_nil, Bool.and_true,
    Bool.and_eq_true, decide_eq_true_eq] at applies
  simp only [bitField, linkRegister] at applies returns
  rw [returnParcel]
  omega

/-- How the flows of control of a parcel and its expansion compare. -/
structure FlowsAgree (parcel : Nat) (short long : ControlFlow) : Prop where
  /-- Control goes on two bytes later, and does not differ otherwise. -/
  agree :
    parcel ≠ returnParcel → long = short.mapNext (Address.advance · 2)
  /-- A return is not told from a jump to any other register. -/
  differ :
    parcel = returnParcel → short = .indirectBranch [] ∧ long = .ret

theorem exists_flows_of_expansion
    {xlen : Xlen}
    {word : Word}
    (two : word.size = 2)
    {expansion : Expansion}
    (expands : expansion? xlen word.value = some expansion)
    {operands : List Operand}
    (means :
      List.Forall₂ (Part.Means xlen word) expansion.keptParts operands) :
    ∃ short long,
      Flows xlen word expansion operands short long ∧
        FlowsAgree word.value short long := by
  by_cases returns : word.value = returnParcel
  · rw [returns, expansion?_returnParcel, Option.some.injEq] at expands
    cases expands
    have flows := flows_jr means
    rw [if_pos (by rw [returns]; rfl)] at flows
    exact ⟨_, _, flows, fun other => absurd returns other,
      fun _ => ⟨rfl, rfl⟩⟩
  · suffices agrees :
        ∃ short long,
          Flows xlen word expansion operands short long ∧
            long = short.mapNext (Address.advance · 2) by
      rcases agrees with ⟨short, long, flows, same⟩
      exact ⟨short, long, flows, fun _ => same,
        fun equal => absurd equal returns⟩
    cases sequential : isSequential expansion with
    | true =>
        exact ⟨_, _, flows_of_isSequential sequential operands, rfl⟩
    | false =>
        have member : expansion ∈ transfers xlen := by
          rw [← filter_expansions, List.mem_filter]
          exact ⟨List.mem_of_find?_eq_some expands, by rw [sequential]; rfl⟩
        simp only [transfers, List.cons_append, List.nil_append,
          List.mem_cons, List.mem_ite_nil_right, List.not_mem_nil, or_false]
          at member
        rcases member with rfl | rfl | rfl | rfl | rfl | ⟨-, rfl⟩
        · rcases flows_j means with ⟨target, flows⟩
          exact ⟨_, _, flows, rfl⟩
        · rcases flows_beqz means with ⟨target, flows⟩
          exact ⟨_, _, flows,
            by rw [ControlFlow.mapNext, Address.advance_advance]⟩
        · rcases flows_bnez means with ⟨target, flows⟩
          exact ⟨_, _, flows,
            by rw [ControlFlow.mapNext, Address.advance_advance]⟩
        · have other : bitField word.value 7 5 ≠ linkRegister :=
            fun same => returns (eq_returnParcel two expands same)
          have flows := flows_jr means
          rw [if_neg other] at flows
          exact ⟨_, _, flows, rfl⟩
        · exact ⟨_, _, flows_jalr means,
            by rw [ControlFlow.mapNext, Address.advance_advance]⟩
        · rcases flows_jal means with ⟨target, flows⟩
          exact ⟨_, _, flows,
            by rw [ControlFlow.mapNext, Address.advance_advance]⟩

section Decoded

variable
  {xlen : Xlen}
  {options : Options}
  {word : Word}
  {raw : RawInstruction}
  {expansion : Expansion}
  {value : Nat}
  {shortFlow longFlow : ControlFlow}
  (stands : StandsFor xlen options word raw expansion value)
  (flows : Flows xlen word expansion raw.operands shortFlow longFlow)
  (wantDetail : Bool)
include stands flows

/-- A compressed word is described in the form in which it is read. -/
theorem exists_short_of_flows
    (two : word.size = 2)
    (decoded : Engine.decodeRaw ⟨isa xlen, options⟩ word = .ok raw) :
    ∃ short,
      Engine.decodeWord ⟨isa xlen, options⟩ word wantDetail = .ok short ∧
        short.instruction.controlFlow = shortFlow := by
  have preferred := stands.preferred
  rw [Expansion.preferredSoundly, Bool.and_eq_true] at preferred
  have sameForm : raw.form = ⟨expansion.short.id, raw.operands⟩ := by
    rw [RawInstruction.form, stands.opcode]
  refine Engine.exists_decodeWord_of_flowOf? decoded ?_ wantDetail
  rw [show (isa xlen).aliases = pseudos from rfl, sameForm,
    canonicalize_eq_self preferred.1 raw.operands, stands.specifics, two]
  exact flows.short

/-- The word of an expansion is described in its preferred form. -/
theorem exists_long_of_flows
    {longWord : Word}
    (four : longWord.size = 4)
    (sameAddress : longWord.address = word.address)
    (sameValue : longWord.value = value) :
    ∃ long,
      Engine.decodeWord ⟨isa xlen, options⟩ longWord wantDetail = .ok long ∧
        long.instruction.controlFlow = longFlow := by
  refine
    Engine.exists_decodeWord_of_flowOf?
      (stands.decodes longWord four sameAddress sameValue) ?_ wantDetail
  rw [sameAddress, four]
  exact flows.long

end Decoded

/--
A compressed word that decodes in earnest and the word of its expansion, at
the same address, lead control to the same places, except that it goes on two
bytes later after the longer word. The only exception is a return, which is
told from a jump to any other register after the longer word alone.
-/
theorem agrees_on_flow
    (xlen : Xlen)
    {options : Options}
    (allFeatures : options.features = .all)
    {word : Word}
    (two : word.size = 2)
    {raw : RawInstruction}
    (decoded : Engine.decodeRaw ⟨isa xlen, options⟩ word = .ok raw)
    (success : raw.status = .success)
    (wantDetail : Bool) :
    ∃ expansion value short,
      expansion? xlen word.value = some expansion ∧
        expansion.long.encode? xlen
            (expansion.operands xlen word.address word.value) none =
          some value ∧
        Engine.decodeWord ⟨isa xlen, options⟩ word wantDetail = .ok short ∧
        ∀ longWord : Word,
          longWord.size = 4 → longWord.address = word.address →
            longWord.value = value →
              ∃ long,
                Engine.decodeWord ⟨isa xlen, options⟩ longWord wantDetail =
                    .ok long ∧
                  FlowsAgree word.value short.instruction.controlFlow
                    long.instruction.controlFlow := by
  rcases exists_standsFor allFeatures two decoded success with
    ⟨expansion, value, stands⟩
  rcases exists_flows_of_expansion two stands.expands stands.means with
    ⟨shortFlow, longFlow, flows, agree⟩
  rcases exists_short_of_flows stands flows wantDetail two decoded with
    ⟨short, shortDecoded, rfl⟩
  refine
    ⟨expansion, value, short, stands.expands, stands.encoded, shortDecoded,
      ?_⟩
  intro longWord four sameAddress sameValue
  rcases
      exists_long_of_flows stands flows wantDetail four sameAddress
        sameValue with
    ⟨long, longDecoded, rfl⟩
  exact ⟨long, longDecoded, agree⟩

/-- A branch if zero falls through two bytes later in its long form. -/
theorem agrees_on_flow_beqz :
    ∃ short long,
      Engine.decodeWord ⟨isa .rv64, {}⟩ beqzWord true = .ok short ∧
        Engine.decodeWord ⟨isa .rv64, {}⟩ beqWord true = .ok long ∧
        FlowsAgree 0xdc7d short.instruction.controlFlow
          long.instruction.controlFlow := by
  obtain ⟨expansion, value, short, expands, encoded, decodes, agrees⟩ :=
    @agrees_on_flow .rv64 {} rfl beqzWord rfl
      { opcode := Opcode.cBeqz.id
        operands := [Bank.integer.operand .rv64 8, targetAt 0x1000 (-2)]
        status := .success
        specifics := .riscV none }
      (by decide +kernel) rfl true
  have listed :
      expansion? .rv64 beqzWord.value =
        some (comparingZero .cBeqz 0b110 .beq) := by
    rfl
  rw [listed] at expands
  cases expands
  have computed :
      (comparingZero .cBeqz 0b110 .beq).long.encode? .rv64
          ((comparingZero .cBeqz 0b110 .beq).operands .rv64 beqzWord.address
            beqzWord.value)
          none =
        some beqWord.value := by
    decide +kernel
  rw [computed] at encoded
  rcases agrees beqWord rfl rfl (Option.some.inj encoded) with
    ⟨long, longDecodes, agree⟩
  exact ⟨short, long, decodes, longDecodes, agree⟩

/-- A word of `c.jr ra`. -/
def shortReturnWord : Word :=
  ⟨[0x82, 0x80], 0x1000, returnParcel, by simp, by decide⟩

/-- A word of `jalr zero, 0(ra)`. -/
def longReturnWord : Word :=
  ⟨[0x67, 0x80, 0x00, 0x00], 0x1000, 0x00008067, by simp, by decide⟩

set_option maxRecDepth 50000 in
/-- A return is told from other jumps by its expansion alone. -/
theorem differs_on_flow_shortReturn :
    ∃ expansion short long,
      expansion? .rv64 shortReturnWord.value = some expansion ∧
        expansion.long.encode? .rv64
            (expansion.operands .rv64 shortReturnWord.address
              shortReturnWord.value)
            none =
          some longReturnWord.value ∧
        Engine.decodeWord ⟨isa .rv64, {}⟩ shortReturnWord true = .ok short ∧
        short.status = .success ∧
        Engine.decodeWord ⟨isa .rv64, {}⟩ longReturnWord true = .ok long ∧
        short.instruction.controlFlow = .indirectBranch [] ∧
        long.instruction.controlFlow = .ret ∧
        ∀ move,
          long.instruction.controlFlow ≠
            short.instruction.controlFlow.mapNext move := by
  refine ⟨jumpRow, _, _, expansion?_returnParcel .rv64, ?_, rfl, rfl, rfl,
    rfl, rfl, ?_⟩
  · decide +kernel
  · intro move same
    cases same

end Compressed

end RiscV

end MachineCode
