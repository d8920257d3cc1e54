import MachineCode.Proofs.Families
import MachineCode.Proofs.Table.Granting

/-!
# More extensions

Extensions give a meaning to words that had none. They do not change what a
word already is, be it an instruction or the fault of an operand
(`Engine.decodeWith_of_containsAll`): the decode programs of all families are
steady under the predicates that extensions grant.
-/

namespace MachineCode

theorem Features.has_of_containsAll
    {features more : Features}
    (contains : more.containsAll features)
    {feature : Feature}
    (has : features.has feature) :
    more.has feature := by
  rw [containsAll, decide_eq_true_eq] at contains
  rw [Features.has, ← contains, Nat.testBit_and, Bool.and_eq_true] at has
  exact has.1

namespace Architecture

/-! ## Predicates that extensions grant -/

/-- Whether extensions decide about a predicate. -/
def varies (architecture : Architecture) (predicate : Nat) : Bool :=
  match architecture with
  | .riscV64 | .riscV32 => predicate ≠ RiscV.Requirement.rv64.id
  | _ => true

section Grants

variable
  {architecture : Architecture}
  {isa : Isa}
  {features more : Features}
  {predicate : Nat}

theorem grants_of_containsAll
    (known : architecture.isa? = some isa)
    (contains : more.containsAll features)
    (granted : isa.grants predicate features) :
    isa.grants predicate more := by
  cases architecture with
  | arm64 =>
      cases known
      simp only [Arm64.isa] at granted ⊢
      split at granted
      · next requirement _ =>
        cases requirement <;>
          exact Features.has_of_containsAll contains granted
      · cases granted
  | riscV64 | riscV32 =>
      cases known
      simp only [RiscV.isa] at granted ⊢
      split at granted
      · next requirement _ =>
        cases requirement
        case rv64 => exact granted
        all_goals exact Features.has_of_containsAll contains granted
      · cases granted
  | c64x =>
      cases known
      cases granted
  | unknown => cases known

theorem grants_eq_of_varies
    (known : architecture.isa? = some isa)
    (constant : architecture.varies predicate = false) :
    isa.grants predicate more = isa.grants predicate features := by
  cases architecture with
  | arm64 | c64x => cases constant
  | riscV64 | riscV32 =>
      cases known
      simp only [varies, decide_eq_false_iff_not, not_not] at constant
      subst constant
      rfl
  | unknown => cases known

end Grants

/-! ## Decode programs -/

theorem isSteady_arm64 : Arm64.program.isSteady arm64.varies := by
  decide +kernel

theorem isSteady_compressed :
    RiscV.Compressed.program.isSteady riscV64.varies := by
  decide +kernel

theorem isSteady_wide : RiscV.Wide.program.isSteady riscV64.varies := by
  decide +kernel

theorem isSteady_c64x : C64x.program.isSteady c64x.varies := by
  decide +kernel

/-- The decode programs of a family are steady. -/
theorem isSteady_of_program?
    {architecture : Architecture}
    {size : Nat}
    {program : Program}
    (found : architecture.program? size = some program) :
    program.isSteady architecture.varies := by
  cases architecture with
  | arm64 =>
      rw [program?, Option.ite_none_right_eq_some] at found
      cases found.2
      exact isSteady_arm64
  | riscV64 | riscV32 =>
      rw [program?] at found
      split at found
      · cases found
        exact isSteady_compressed
      · rw [Option.ite_none_right_eq_some] at found
        cases found.2
        exact isSteady_wide
  | c64x =>
      rw [program?, Option.ite_none_right_eq_some] at found
      cases found.2
      exact isSteady_c64x
  | unknown => cases found

end Architecture

/-! ## Decoding -/

section Decoding

variable
  {architecture : Architecture}
  {isa : Isa}
  {options : Options}
  {more : Features}

/-- A word that an instruction matches is matched by the same one. -/
theorem decodeRaw_of_containsAll
    (known : architecture.isa? = some isa)
    (contains : more.containsAll options.features)
    {word : Word}
    (recognised :
      Engine.decodeRaw ⟨isa, options⟩ word ≠ word.unknown) :
    Engine.decodeRaw ⟨isa, { options with features := more }⟩ word =
      Engine.decodeRaw ⟨isa, options⟩ word := by
  rw [Architecture.decodeRaw_eq known] at recognised ⊢
  rw [Architecture.decodeRaw_eq known]
  cases found : architecture.program? word.size with
  | none => rfl
  | some program =>
      rw [found] at recognised
      exact Program.eval_of_wider
        (Architecture.isSteady_of_program? found)
        (fun _ => Architecture.grants_of_containsAll known contains)
        (fun _ => Architecture.grants_eq_of_varies known) recognised

/-- Extensions do not show in what is said of an instruction. -/
theorem finishRaw_withFeatures
    (known : architecture.isa? = some isa)
    (word : Word)
    (raw : RawInstruction)
    (wantDetail : Bool) :
    Engine.finishRaw ⟨isa, { options with features := more }⟩ word raw
        wantDetail =
      Engine.finishRaw ⟨isa, options⟩ word raw wantDetail := by
  cases architecture with
  | arm64 | riscV64 | riscV32 | c64x =>
      cases known
      rfl
  | unknown => cases known

end Decoding

/--
What decodes with some extensions, or fails for another reason than an unknown
opcode, has the same result with more extensions.
-/
theorem Engine.decodeWith_of_containsAll
    {architecture : Architecture}
    {engine : Engine}
    (known : architecture.isa? = some engine.isa)
    {more : Features}
    (contains : more.containsAll engine.options.features)
    {input : List UInt8}
    {address : Address}
    {wantDetail : Bool}
    (recognised :
      ∀ place bytes,
        engine.decodeWith input address wantDetail ≠
          .error (.unknownOpcode place bytes)) :
    Engine.decodeWith
        ⟨engine.isa, { engine.options with features := more }⟩ input address
        wantDetail =
      engine.decodeWith input address wantDetail := by
  rcases engine with ⟨isa, options⟩
  dsimp only at known contains ⊢
  have sameRead :
      Engine.readWord ⟨isa, { options with features := more }⟩ input
          address =
        Engine.readWord ⟨isa, options⟩ input address := rfl
  rw [decodeWith] at recognised
  rw [decodeWith, decodeWith, sameRead]
  cases read : Engine.readWord ⟨isa, options⟩ input address with
  | error error => rfl
  | ok word =>
      rw [read] at recognised
      have matched : Engine.decodeRaw ⟨isa, options⟩ word ≠ word.unknown := by
        intro unknown
        refine recognised word.address word.bytes ?_
        simp only [decodeWord, unknown]
        rfl
      simp only [decodeWord, decodeRaw_of_containsAll known contains matched,
        finishRaw_withFeatures known]

/-- The word of `fadd.s fa0, fa1, fa2` with a reserved rounding mode. -/
def reservedRounding : List UInt8 :=
  [0x53, 0xd5, 0xc5, 0x00]

/-- An engine for RV32 with single precision and no other extension. -/
def singlePrecision : Engine :=
  ⟨RiscV.isa .rv32, { features := .singleton .riscVFloat }⟩

set_option maxRecDepth 20000 in
/-- A reserved rounding mode stays one when there is double precision too. -/
theorem Engine.decodeWith_of_containsAll_rounding :
    Architecture.riscV32.isa? = some singlePrecision.isa ∧
      Features.all.containsAll singlePrecision.options.features ∧
      singlePrecision.decodeWith reservedRounding 0x1000 true =
        .error (.invalidOperand 0x1000 (.reserved "rounding mode" 5)) ∧
      Engine.decodeWith ⟨RiscV.isa .rv32, {}⟩ reservedRounding 0x1000 true =
        .error (.invalidOperand 0x1000 (.reserved "rounding mode" 5)) := by
  have known :
      Architecture.riscV32.isa? = some singlePrecision.isa := rfl
  have contains :
      Features.all.containsAll singlePrecision.options.features := by
    decide
  have fails :
      singlePrecision.decodeWith reservedRounding 0x1000 true =
        .error (.invalidOperand 0x1000 (.reserved "rounding mode" 5)) := by
    rfl
  refine ⟨known, contains, fails, ?_⟩
  rw [← fails]
  refine Engine.decodeWith_of_containsAll known contains ?_
  intro place bytes unknown
  rw [fails] at unknown
  cases unknown

end MachineCode
