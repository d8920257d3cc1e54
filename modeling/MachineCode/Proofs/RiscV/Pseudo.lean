import MachineCode.Proofs.Alias
import MachineCode.Proofs.RiscV.Touch

/-!
# Pseudo-instructions touch the same registers

Each pseudo-instruction leaves out the zero register, the link register or a
constant. It touches the same registers as the instruction that it stands for,
apart from the zero register: a link register that is left out is read or
written without being named, and a control register is no storage, named or
not. There is one lemma for each way of leaving out operands.
-/

namespace MachineCode.RiscV

/-- Three operands that pass a test have been reduced. -/
theorem exists_of_keepOfThree
    {test : Operand → Operand → Operand → Bool}
    {kept : Operand → Operand → Operand → List Operand}
    {operands reduced : List Operand}
    (reduces : keepOfThree test kept operands = some reduced) :
    ∃ first second third,
      operands = [first, second, third] ∧ test first second third ∧
        reduced = kept first second third := by
  unfold keepOfThree at reduces
  split at reduces
  · next first second third =>
    split at reduces
    · next passed =>
      cases reduces
      exact ⟨first, second, third, rfl, passed, rfl⟩
    · cases reduces
  · cases reduces

theorem exists_of_linking
    {number : Nat}
    {operands reduced : List Operand}
    (reduces : linking number operands = some reduced) :
    ∃ link target,
      operands = [link, target] ∧ link.isRegister number ∧
        reduced = [target] := by
  unfold linking at reduces
  split at reduces
  · next link target =>
    split at reduces
    · next linked =>
      cases reduces
      exact ⟨link, target, rfl, linked, rfl⟩
    · cases reduces
  · cases reduces

section Reductions

variable
  {xlen : Xlen}
  {specifics : Specifics}
  {long short : Opcode}
  {operands reduced : List Operand}
  {first second third : Access}

/-- Neither opcode touches registers without naming them. -/
def Plain (long short : Opcode) : Prop :=
  long.info.implicitReads = short.info.implicitReads ∧
    long.info.implicitWrites = short.info.implicitWrites

theorem sameTouches_of_nothing
    (plain : Plain long short)
    (longAccess : long.info.access = [first, second, third])
    (reduces : nothing operands = some reduced) :
    SameTouches (long.detail xlen operands specifics)
      (short.detail xlen reduced specifics) := by
  rcases exists_of_keepOfThree reduces with
    ⟨left, middle, right, rfl, passed, rfl⟩
  rw [Bool.and_eq_true, Bool.and_eq_true] at passed
  refine sameTouches_of_drops plain.1 plain.2 ?_
  rw [longAccess]
  exact .drop (silent_of_isRegister passed.1.1 first)
    (.drop (silent_of_isRegister passed.1.2 second)
      (.drop (silent_of_isConstant passed.2 third) .nil))

theorem sameTouches_of_withoutConstant
    {value : Int}
    (plain : Plain long short)
    (longAccess : long.info.access = [first, second, third])
    (shortAccess : short.info.access = [first, second])
    (reduces : withoutConstant value operands = some reduced) :
    SameTouches (long.detail xlen operands specifics)
      (short.detail xlen reduced specifics) := by
  rcases exists_of_keepOfThree reduces with
    ⟨left, middle, right, rfl, passed, rfl⟩
  refine sameTouches_of_drops plain.1 plain.2 ?_
  rw [longAccess, shortAccess]
  exact .keep ⟨left, first⟩ (.keep ⟨middle, second⟩
    (.drop (silent_of_isConstant passed third) .nil))

theorem sameTouches_of_withoutZeroFirst
    (plain : Plain long short)
    (longAccess : long.info.access = [first, second, third])
    (shortAccess : short.info.access = [second, third])
    (reduces : withoutZeroFirst operands = some reduced) :
    SameTouches (long.detail xlen operands specifics)
      (short.detail xlen reduced specifics) := by
  rcases exists_of_keepOfThree reduces with
    ⟨left, middle, right, rfl, passed, rfl⟩
  refine sameTouches_of_drops plain.1 plain.2 ?_
  rw [longAccess, shortAccess]
  exact .drop (silent_of_isRegister passed first)
    (.keep ⟨middle, second⟩ (.keep ⟨right, third⟩ .nil))

theorem sameTouches_of_withoutZeroSecond
    (plain : Plain long short)
    (longAccess : long.info.access = [first, second, third])
    (shortAccess : short.info.access = [first, third])
    (reduces : withoutZeroSecond operands = some reduced) :
    SameTouches (long.detail xlen operands specifics)
      (short.detail xlen reduced specifics) := by
  rcases exists_of_keepOfThree reduces with
    ⟨left, middle, right, rfl, passed, rfl⟩
  refine sameTouches_of_drops plain.1 plain.2 ?_
  rw [longAccess, shortAccess]
  exact .keep ⟨left, first⟩
    (.drop (silent_of_isRegister passed second)
      (.keep ⟨right, third⟩ .nil))

theorem sameTouches_of_withoutZeroThird
    (plain : Plain long short)
    (longAccess : long.info.access = [first, second, third])
    (shortAccess : short.info.access = [first, second])
    (reduces : withoutZeroThird operands = some reduced) :
    SameTouches (long.detail xlen operands specifics)
      (short.detail xlen reduced specifics) := by
  rcases exists_of_keepOfThree reduces with
    ⟨left, middle, right, rfl, passed, rfl⟩
  refine sameTouches_of_drops plain.1 plain.2 ?_
  rw [longAccess, shortAccess]
  exact .keep ⟨left, first⟩ (.keep ⟨middle, second⟩
    (.drop (silent_of_isRegister passed third) .nil))

theorem sameTouches_of_orderingAll
    (reduces : orderingAll operands = some reduced) :
    SameTouches (Opcode.fence.detail xlen operands specifics)
      (Opcode.fenceAll.detail xlen reduced specifics) := by
  unfold orderingAll at reduces
  split at reduces
  · next before after =>
    split at reduces
    · next passed =>
      cases reduces
      rw [Bool.and_eq_true] at passed
      refine sameTouches_of_drops rfl rfl ?_
      exact .drop (silent_of_isConstant passed.1 .read)
        (.drop (silent_of_isConstant passed.2 .read) .nil)
    · cases reduces
  · cases reduces

/-! ## Accesses to control registers -/

/-- Counters are read without being written, so they are not named twice. -/
theorem sameTouches_of_readingCounter
    {number : Nat}
    (plain : Plain long short)
    (longAccess : long.info.access = [first, second, third])
    (shortAccess : short.info.access = [first])
    (reduces : readingCounter number operands = some reduced) :
    SameTouches (long.detail xlen operands specifics)
      (short.detail xlen reduced specifics) := by
  rcases exists_of_keepOfThree reduces with
    ⟨left, middle, right, rfl, passed, rfl⟩
  rw [Bool.and_eq_true] at passed
  refine sameTouches_of_drops plain.1 plain.2 ?_
  rw [longAccess, shortAccess]
  cases middle with
  | systemRegister register =>
      exact .keep ⟨left, first⟩
        (.drop (silent_systemRegister register second)
          (.drop (silent_of_isRegister passed.2 third) .nil))
  | _ => cases passed.1

section Control

variable
  {controlled : Access}
  (control :
    ∀ operand, operands[1]? = some operand →
      ∃ register, operand = .systemRegister register)
include control

/-- A control register is no storage, however it is accessed. -/
theorem sameTouches_of_control_withoutZeroFirst
    (plain : Plain long short)
    (longAccess : long.info.access = [first, second, third])
    (shortAccess : short.info.access = [controlled, third])
    (reduces : withoutZeroFirst operands = some reduced) :
    SameTouches (long.detail xlen operands specifics)
      (short.detail xlen reduced specifics) := by
  rcases exists_of_keepOfThree reduces with
    ⟨left, middle, right, rfl, passed, rfl⟩
  rcases control middle rfl with ⟨register, rfl⟩
  refine sameTouches_of_drops plain.1 plain.2 ?_
  rw [longAccess, shortAccess]
  exact .drop (silent_of_isRegister passed first)
    (.change (silent_systemRegister register second)
      (silent_systemRegister register controlled)
      (.keep ⟨right, third⟩ .nil))

theorem sameTouches_of_control_withoutZeroThird
    (plain : Plain long short)
    (longAccess : long.info.access = [first, second, third])
    (shortAccess : short.info.access = [first, controlled])
    (reduces : withoutZeroThird operands = some reduced) :
    SameTouches (long.detail xlen operands specifics)
      (short.detail xlen reduced specifics) := by
  rcases exists_of_keepOfThree reduces with
    ⟨left, middle, right, rfl, passed, rfl⟩
  rcases control middle rfl with ⟨register, rfl⟩
  refine sameTouches_of_drops plain.1 plain.2 ?_
  rw [longAccess, shortAccess]
  exact .keep ⟨left, first⟩
    (.change (silent_systemRegister register second)
      (silent_systemRegister register controlled)
      (.drop (silent_of_isRegister passed third) .nil))

end Control

/-! ## Jumps -/

theorem sameTouches_j
    (reduces : linking zeroRegister operands = some reduced) :
    SameTouches (Opcode.jal.detail xlen operands specifics)
      (Opcode.j.detail xlen reduced specifics) := by
  rcases exists_of_linking reduces with ⟨link, target, rfl, linked, rfl⟩
  refine sameTouches_of_drops rfl rfl ?_
  exact .drop (silent_of_isRegister linked .write)
    (.keep ⟨target, .read⟩ .nil)

theorem sameTouches_jr
    (reduces : linkingRegister zeroRegister operands = some reduced) :
    SameTouches (Opcode.jalr.detail xlen operands specifics)
      (Opcode.jr.detail xlen reduced specifics) := by
  rcases exists_of_keepOfThree reduces with
    ⟨link, target, offset, rfl, passed, rfl⟩
  rw [Bool.and_eq_true] at passed
  refine sameTouches_of_drops rfl rfl ?_
  exact .drop (silent_of_isRegister passed.1 .write)
    (.keep ⟨target, .read⟩
      (.drop (silent_of_isConstant passed.2 .read) .nil))

/-- The link register is written in both forms, named or not. -/
theorem sameTouches_of_link
    {targets : List Operand}
    {accesses : List Access}
    (longAccess : long.info.access = .write :: accesses)
    (sameAccess :
      OpcodeInfo.accessOperands targets accesses =
        OpcodeInfo.accessOperands targets short.info.access)
    (sameReads : long.info.implicitReads = short.info.implicitReads)
    (longWrites : long.info.implicitWrites = [])
    (shortWrites : short.info.implicitWrites = [returnAddress]) :
    SameTouches
      (long.detail xlen (.register (atWidth xlen returnAddress) :: targets)
        specifics)
      (short.detail xlen targets specifics) := by
  intro register _
  simp only [Opcode.detail, completeDetail, OpcodeInfo.detail,
    Detail.readMentions, Detail.writeMentions, longAccess, longWrites,
    shortWrites, sameReads, OpcodeInfo.accessOperands, sameAccess,
    List.flatMap_cons, List.map_nil, List.map_singleton, List.append_nil]
  refine ⟨Iff.rfl, ?_⟩
  rw [List.mem_append, List.mem_append, or_comm]
  exact Iff.rfl

variable
  (linked :
    ∀ operand ∈ operands, operand.isRegister linkRegister →
      operand = .register (atWidth xlen returnAddress))
include linked

theorem sameTouches_jalLink
    (reduces : linking linkRegister operands = some reduced) :
    SameTouches (Opcode.jal.detail xlen operands specifics)
      (Opcode.jalLink.detail xlen reduced specifics) := by
  rcases exists_of_linking reduces with ⟨link, target, rfl, passed, rfl⟩
  rw [List.forall_mem_cons] at linked
  rw [linked.1 passed]
  exact sameTouches_of_link rfl rfl rfl rfl rfl

theorem sameTouches_jalrLink
    (reduces : linkingRegister linkRegister operands = some reduced) :
    SameTouches (Opcode.jalr.detail xlen operands specifics)
      (Opcode.jalrLink.detail xlen reduced specifics) := by
  rcases exists_of_keepOfThree reduces with
    ⟨link, target, offset, rfl, passed, rfl⟩
  rw [Bool.and_eq_true] at passed
  rw [List.forall_mem_cons] at linked
  rw [linked.1 passed.1]
  -- First the offset is left out, then the link register is.
  have shorter :
      SameTouches
        (Opcode.jalr.detail xlen
          [.register (atWidth xlen returnAddress), target, offset]
          specifics)
        (Opcode.jalr.detail xlen
          [.register (atWidth xlen returnAddress), target] specifics) :=
    sameTouches_of_drops rfl rfl
      (.keep ⟨_, .write⟩ (.keep ⟨target, .read⟩
        (.drop (silent_of_isConstant passed.2 .read) .nil)))
  exact shorter.trans (sameTouches_of_link rfl rfl rfl rfl rfl)

/-- The link register is read in both forms, named or not. -/
theorem sameTouches_ret
    (reduces : returning operands = some reduced) :
    SameTouches (Opcode.jalr.detail xlen operands specifics)
      (Opcode.ret.detail xlen reduced specifics) := by
  rcases exists_of_keepOfThree reduces with
    ⟨link, target, offset, rfl, passed, rfl⟩
  rw [Bool.and_eq_true, Bool.and_eq_true] at passed
  rw [List.forall_mem_cons, List.forall_mem_cons] at linked
  rw [linked.2.1 passed.1.2]
  have shorter :
      SameTouches
        (Opcode.jalr.detail xlen
          [link, .register (atWidth xlen returnAddress), offset] specifics)
        (Opcode.jr.detail xlen [.register (atWidth xlen returnAddress)]
          specifics) :=
    sameTouches_of_drops rfl rfl
      (.drop (silent_of_isRegister passed.1.1 .write) (.keep ⟨_, .read⟩
        (.drop (silent_of_isConstant passed.2 .read) .nil)))
  refine shorter.trans ?_
  intro register counts
  refine ⟨?_, Iff.rfl⟩
  change
    register ∈
        [atWidth xlen returnAddress] ++ specifics.implicitReads ++ [] ↔
      register ∈
        [] ++ specifics.implicitReads ++ [atWidth xlen returnAddress]
  rw [List.append_nil, List.nil_append, List.mem_append, List.mem_append,
    or_comm]

end Reductions

/-! ## All pseudo-instructions -/

/-- What the rules for an opcode rely on in its operands. -/
structure Opcode.Takes
    (xlen : Xlen)
    (opcode : Opcode)
    (operands : List Operand) :
    Prop where
  /-- No operand but the link register itself has its number. -/
  linked :
    ∀ operand ∈ operands, operand.isRegister linkRegister →
      operand = .register (atWidth xlen returnAddress)
  /-- An access to a control register names it second. -/
  control :
    opcode.info.operation = .systemAccess →
      ∀ operand, operands[1]? = some operand →
        ∃ register, operand = .systemRegister register

/-- Whether the preferred form of a rule touches the same registers. -/
def PreservesTouches (xlen : Xlen) (rule : Alias) : Prop :=
  ∀ (opcode : Opcode) (specifics : Specifics)
    (operands reduced : List Operand),
    rule.opcode = opcode.id → opcode.Takes xlen operands →
      rule.reduce operands = some reduced →
      ∃ preferred : Opcode,
        rule.preferred = preferred.id ∧
          SameTouches (opcode.detail xlen operands specifics)
            (preferred.detail xlen reduced specifics)

section Rules

variable
  {xlen : Xlen}
  {long short : Opcode}
  {reduce : List Operand → Option (List Operand)}

theorem preservesTouches_pseudo
    (preserves :
      ∀ {specifics : Specifics} {operands reduced : List Operand},
        long.Takes xlen operands → reduce operands = some reduced →
          SameTouches (long.detail xlen operands specifics)
            (short.detail xlen reduced specifics)) :
    PreservesTouches xlen (pseudo long short reduce) := by
  intro opcode specifics operands reduced same takes reduces
  cases Opcode.id_injective (show long.id = opcode.id from same)
  exact ⟨short, rfl, preserves takes reduces⟩

theorem preservesTouches_readingCounter
    {first second third : Access}
    (number : Nat)
    (plain : Plain long short)
    (longAccess : long.info.access = [first, second, third])
    (shortAccess : short.info.access = [first]) :
    PreservesTouches xlen (pseudo long short (readingCounter number)) :=
  preservesTouches_pseudo fun _ =>
    sameTouches_of_readingCounter plain longAccess shortAccess

/-- The accesses to control registers that give no result. -/
theorem preservesTouches_control_withoutZeroFirst
    {first second third controlled : Access}
    (system : long.info.operation = .systemAccess)
    (plain : Plain long short)
    (longAccess : long.info.access = [first, second, third])
    (shortAccess : short.info.access = [controlled, third]) :
    PreservesTouches xlen (pseudo long short withoutZeroFirst) :=
  preservesTouches_pseudo fun takes =>
    sameTouches_of_control_withoutZeroFirst (takes.control system) plain
      longAccess shortAccess

theorem preservesTouches_withoutZeroSecond
    {first second third : Access}
    (plain : Plain long short)
    (longAccess : long.info.access = [first, second, third])
    (shortAccess : short.info.access = [first, third]) :
    PreservesTouches xlen (pseudo long short withoutZeroSecond) :=
  preservesTouches_pseudo fun _ =>
    sameTouches_of_withoutZeroSecond plain longAccess shortAccess

theorem preservesTouches_withoutConstant
    {first second third : Access}
    (value : Int)
    (plain : Plain long short)
    (longAccess : long.info.access = [first, second, third])
    (shortAccess : short.info.access = [first, second]) :
    PreservesTouches xlen (pseudo long short (withoutConstant value)) :=
  preservesTouches_pseudo fun _ =>
    sameTouches_of_withoutConstant plain longAccess shortAccess

theorem preservesTouches_withoutZeroFirst
    {first second third : Access}
    (plain : Plain long short)
    (longAccess : long.info.access = [first, second, third])
    (shortAccess : short.info.access = [second, third]) :
    PreservesTouches xlen (pseudo long short withoutZeroFirst) :=
  preservesTouches_pseudo fun _ =>
    sameTouches_of_withoutZeroFirst plain longAccess shortAccess

theorem preservesTouches_withoutZeroThird
    {first second third : Access}
    (plain : Plain long short)
    (longAccess : long.info.access = [first, second, third])
    (shortAccess : short.info.access = [first, second]) :
    PreservesTouches xlen (pseudo long short withoutZeroThird) :=
  preservesTouches_pseudo fun _ =>
    sameTouches_of_withoutZeroThird plain longAccess shortAccess

end Rules

theorem preservesTouches_of_mem (xlen : Xlen) :
    ∀ rule ∈ pseudos, PreservesTouches xlen rule := by
  simp only [pseudos, List.forall_mem_cons]
  exact
    ⟨preservesTouches_pseudo fun _ => sameTouches_of_nothing ⟨rfl, rfl⟩ rfl,
      preservesTouches_withoutZeroSecond ⟨rfl, rfl⟩ rfl rfl,
      preservesTouches_withoutConstant 0 ⟨rfl, rfl⟩ rfl rfl,
      preservesTouches_withoutConstant (-1) ⟨rfl, rfl⟩ rfl rfl,
      preservesTouches_withoutZeroSecond ⟨rfl, rfl⟩ rfl rfl,
      preservesTouches_withoutZeroSecond ⟨rfl, rfl⟩ rfl rfl,
      preservesTouches_withoutConstant 0 ⟨rfl, rfl⟩ rfl rfl,
      preservesTouches_withoutConstant 1 ⟨rfl, rfl⟩ rfl rfl,
      preservesTouches_withoutZeroSecond ⟨rfl, rfl⟩ rfl rfl,
      preservesTouches_withoutZeroThird ⟨rfl, rfl⟩ rfl rfl,
      preservesTouches_withoutZeroSecond ⟨rfl, rfl⟩ rfl rfl,
      preservesTouches_withoutZeroSecond ⟨rfl, rfl⟩ rfl rfl,
      preservesTouches_withoutZeroSecond ⟨rfl, rfl⟩ rfl rfl,
      preservesTouches_withoutZeroFirst ⟨rfl, rfl⟩ rfl rfl,
      preservesTouches_withoutZeroSecond ⟨rfl, rfl⟩ rfl rfl,
      preservesTouches_withoutZeroSecond ⟨rfl, rfl⟩ rfl rfl,
      preservesTouches_withoutZeroFirst ⟨rfl, rfl⟩ rfl rfl,
      preservesTouches_pseudo fun _ => sameTouches_j,
      preservesTouches_pseudo fun takes => sameTouches_jalLink takes.linked,
      preservesTouches_pseudo fun takes => sameTouches_ret takes.linked,
      preservesTouches_pseudo fun _ => sameTouches_jr,
      preservesTouches_pseudo fun takes =>
        sameTouches_jalrLink takes.linked,
      preservesTouches_readingCounter _ ⟨rfl, rfl⟩ rfl rfl,
      preservesTouches_readingCounter _ ⟨rfl, rfl⟩ rfl rfl,
      preservesTouches_readingCounter _ ⟨rfl, rfl⟩ rfl rfl,
      preservesTouches_pseudo fun takes =>
        sameTouches_of_control_withoutZeroThird (takes.control rfl)
          ⟨rfl, rfl⟩ rfl rfl,
      preservesTouches_control_withoutZeroFirst rfl ⟨rfl, rfl⟩ rfl rfl,
      preservesTouches_control_withoutZeroFirst rfl ⟨rfl, rfl⟩ rfl rfl,
      preservesTouches_control_withoutZeroFirst rfl ⟨rfl, rfl⟩ rfl rfl,
      preservesTouches_control_withoutZeroFirst rfl ⟨rfl, rfl⟩ rfl rfl,
      preservesTouches_control_withoutZeroFirst rfl ⟨rfl, rfl⟩ rfl rfl,
      preservesTouches_control_withoutZeroFirst rfl ⟨rfl, rfl⟩ rfl rfl,
      preservesTouches_pseudo fun _ => sameTouches_of_orderingAll,
      by simp⟩

/--
The preferred form of an instruction touches the same registers, apart from
the zero register.
-/
theorem sameTouches_canonicalize
    {xlen : Xlen}
    {opcode : Opcode}
    {operands : List Operand}
    (takes : opcode.Takes xlen operands)
    (specifics : Specifics) :
    ∃ preferred : Opcode,
      (Alias.canonicalize pseudos ⟨opcode.id, operands⟩).opcode =
          preferred.id ∧
        SameTouches (opcode.detail xlen operands specifics)
          (preferred.detail xlen
            (Alias.canonicalize pseudos ⟨opcode.id, operands⟩).operands
            specifics) := by
  rcases Alias.canonicalize_eq_or_exists pseudos ⟨opcode.id, operands⟩ with
    unchanged | applied
  · rw [unchanged]
    exact ⟨opcode, rfl, .refl _⟩
  · rcases applied with ⟨rule, member, applies⟩
    rcases Alias.exists_of_form? applies with
      ⟨same, reduced, reduces, result⟩
    rw [result]
    exact preservesTouches_of_mem xlen rule member opcode specifics
      operands reduced same takes reduces

/-- An opcode that no rule starts from is left as it is. -/
theorem canonicalize_eq_self
    {opcode : Opcode}
    (preferred : pseudos.all fun rule => rule.opcode ≠ opcode.id)
    (operands : List Operand) :
    Alias.canonicalize pseudos ⟨opcode.id, operands⟩ =
      ⟨opcode.id, operands⟩ := by
  have refused :
      (pseudos.findSome? fun rule => rule.form? ⟨opcode.id, operands⟩) =
        none := by
    rw [List.findSome?_eq_none_iff]
    intro rule member
    have other := List.all_eq_true.mp preferred rule member
    rw [decide_eq_true_eq] at other
    rw [Alias.form?, if_neg other]
  rw [Alias.canonicalize, refused, Option.getD_none]

end MachineCode.RiscV
