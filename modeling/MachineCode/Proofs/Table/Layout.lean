import MachineCode.Proofs.Table.Validity
import MachineCode.RiscV.InstructionSet
import MachineCode.Table.Meaning
import MachineCode.Table.Statement

/-!
# Laid-out programs run as they are meant

A structured program is laid out as a flat table with relative skips and one
field register, which every switch overwrites. This module relates the run of
the table to the direct meaning of the program.

The entries of a program stand in front of what follows them. The induction
therefore speaks of every continuation whose run has one outcome, whatever
was loaded last and wherever it stands: no filter behind a program depends on
a field that the program loads. Validity is needed for one thing only, that
the fields of the program are fields of the word.
-/

namespace MachineCode

/-! ## Entries in front of other entries -/

mutual

/-- The entries of a program do not depend on what follows them. -/
theorem Program.flattenOnto_append :
    ∀ (program : Program) (middle after : List Entry),
      program.flattenOnto (middle ++ after) =
        program.flattenOnto middle ++ after
  | .done, _, _ => rfl
  | .check _ _ _ body rest, middle, after => by
    simp only [Program.flattenOnto, rest.flattenOnto_append,
      body.flattenOnto_append, List.cons_append]
  | .require _ body rest, middle, after => by
    simp only [Program.flattenOnto, rest.flattenOnto_append,
      body.flattenOnto_append, List.cons_append]
  | .switch _ _ cases rest, middle, after => by
    simp only [Program.flattenOnto, rest.flattenOnto_append,
      cases.flattenOnto_append, List.cons_append]
  | .decode _ _ rest, middle, after => by
    simp only [Program.flattenOnto, rest.flattenOnto_append,
      List.cons_append]
  | .decodeExpecting _ _ _ _ rest, middle, after => by
    simp only [Program.flattenOnto, rest.flattenOnto_append,
      List.cons_append]
  | .fail rest, middle, after => by
    simp only [Program.flattenOnto, rest.flattenOnto_append,
      List.cons_append]

/-- The entries of cases do not depend on what follows them. -/
theorem Cases.flattenOnto_append :
    ∀ (cases : Cases) (middle after : List Entry),
      cases.flattenOnto (middle ++ after) =
        cases.flattenOnto middle ++ after
  | .done, _, _ => rfl
  | .case _ body rest, middle, after => by
    simp only [Cases.flattenOnto, rest.flattenOnto_append,
      ← List.cons_append, body.flattenOnto_append]

end

theorem Program.flattenOnto_eq (program : Program) (after : List Entry) :
    program.flattenOnto after = program.flatten ++ after :=
  program.flattenOnto_append [] after

theorem Program.mem_flattenOnto
    (program : Program)
    {after : List Entry}
    {entry : Entry}
    (member : entry ∈ after) :
    entry ∈ program.flattenOnto after := by
  rw [program.flattenOnto_eq]
  exact List.mem_append_right _ member

theorem Cases.mem_flattenOnto
    (cases : Cases)
    {after : List Entry}
    {entry : Entry}
    (member : entry ∈ after) :
    entry ∈ cases.flattenOnto after := by
  rw [← List.nil_append after, cases.flattenOnto_append]
  exact List.mem_append_right _ member

namespace Isa

variable {isa : Isa} {features : Features} {name : String} {word : Word}

/-- To skip as many entries as there are is to start behind them. -/
theorem runEntries_skip
    (skipped after : List Entry)
    (position field : Nat)
    (violated : Bool) :
    isa.runEntries features name word (skipped ++ after) skipped.length
        position field violated =
      isa.runEntries features name word after 0 (position + skipped.length)
        field violated := by
  induction skipped generalizing position with
  | nil => rfl
  | cons entry skipped induction =>
      simp only [List.cons_append, List.length_cons, runEntries, induction]
      congr 1
      omega

/-- A skipped program leads to what follows it. -/
theorem runEntries_skip_program
    (program : Program)
    (after : List Entry)
    (position field : Nat)
    (violated : Bool) :
    isa.runEntries features name word (program.flattenOnto after)
        program.size position field violated =
      isa.runEntries features name word after 0 (position + program.size)
        field violated := by
  rw [program.flattenOnto_eq, ← program.length_flatten]
  exact runEntries_skip program.flatten after position field violated

/--
Whether a run that starts at the entries, with no expectation violated, has
the outcome wherever the entries stand and whatever was loaded last.
-/
def EndsIn
    (isa : Isa)
    (features : Features)
    (name : String)
    (word : Word)
    (entries : List Entry)
    (outcome : Outcome) :
    Prop :=
  ∀ position field,
    isa.runEntries features name word entries 0 position field false =
      outcome

/-- A `fail` ends every run without an instruction. -/
theorem endsIn_fail (after : List Entry) :
    isa.EndsIn features name word (.fail :: after) word.unknown :=
  fun _ _ => rfl

end Isa

/-! ## Programs -/

variable {isa : Isa} {features : Features} {word : Word}

theorem Program.eval?_check
    (start length value : Nat)
    (body rest : Program) :
    (Program.check start length value body rest).eval? isa features word =
      if bitField word.value start length = value then
        (body.eval? isa features word).or (rest.eval? isa features word)
      else
        rest.eval? isa features word := by
  rw [Program.eval?]
  cases body.eval? isa features word <;> rfl

theorem Program.eval?_require (predicate : Nat) (body rest : Program) :
    (Program.require predicate body rest).eval? isa features word =
      if isa.grants predicate features then
        (body.eval? isa features word).or (rest.eval? isa features word)
      else
        rest.eval? isa features word := by
  rw [Program.eval?]
  cases body.eval? isa features word <;> rfl

theorem Program.eval?_switch
    (start length : Nat)
    (cases : Cases)
    (rest : Program) :
    (Program.switch start length cases rest).eval? isa features word =
      (cases.eval? isa features word (bitField word.value start length)).or
        (rest.eval? isa features word) := by
  rw [Program.eval?]
  cases cases.eval? isa features word _ <;> rfl

/-- A body for several values is entered by each of them. -/
theorem Cases.eval?_several
    (values : List Nat)
    (body : Program)
    (rest : Cases)
    (field : Nat) :
    (Cases.several values body rest).eval? isa features word field =
      if field ∈ values then
        some ((body.eval? isa features word).getD word.unknown)
      else
        rest.eval? isa features word field := by
  induction values with
  | nil => rfl
  | cons value values induction =>
      simp only [Cases.several, List.foldr_cons, Cases.eval?,
        List.mem_cons] at induction ⊢
      by_cases same : field = value
      · simp [same]
      · simp [same, induction]

section Simulation

variable {name : String}

mutual

/-- The entries of a program run as the program means. -/
theorem Program.endsIn_flattenOnto :
    ∀ (program : Program) {after : List Entry} {outcome : Outcome},
      (∀ entry ∈ program.flattenOnto after, entry.ReadsWithin word.width) →
      isa.EndsIn features name word after outcome →
      isa.EndsIn features name word (program.flattenOnto after)
        ((program.eval? isa features word).getD outcome)
  | .done, _, _, _, continues => continues
  | .check start length value body rest, after, outcome, readable,
      continues => by
    simp only [Program.flattenOnto, List.forall_mem_cons] at readable
    have restEnds := rest.endsIn_flattenOnto
      (fun entry member => readable.2 entry (body.mem_flattenOnto member))
      continues
    have bodyEnds := body.endsIn_flattenOnto readable.2 restEnds
    intro position field
    simp only [Program.flattenOnto, Isa.runEntries, Program.eval?_check,
      Word.field?_eq_some_of_hasField readable.1]
    split
    · rw [Option.getD_or]
      exact bodyEnds _ _
    · rw [Isa.runEntries_skip_program]
      exact restEnds _ _
  | .require predicate body rest, after, outcome, readable, continues => by
    simp only [Program.flattenOnto, List.forall_mem_cons] at readable
    have restEnds := rest.endsIn_flattenOnto
      (fun entry member => readable.2 entry (body.mem_flattenOnto member))
      continues
    have bodyEnds := body.endsIn_flattenOnto readable.2 restEnds
    intro position field
    simp only [Program.flattenOnto, Isa.runEntries, Program.eval?_require]
    split
    · rw [Option.getD_or]
      exact bodyEnds _ _
    · rw [Isa.runEntries_skip_program]
      exact restEnds _ _
  | .switch start length cases rest, after, outcome, readable,
      continues => by
    simp only [Program.flattenOnto, List.forall_mem_cons] at readable
    have restEnds := rest.endsIn_flattenOnto
      (fun entry member => readable.2 entry (cases.mem_flattenOnto member))
      continues
    intro position field
    simp only [Program.flattenOnto, Isa.runEntries, Program.eval?_switch,
      Word.field?_eq_some_of_hasField readable.1]
    rw [Option.getD_or]
    exact cases.runEntries_flattenOnto readable.2 restEnds _ _
  | .decode opcode format rest, _, _, _, _ => fun _ _ => rfl
  | .decodeExpecting opcode format zeros ones rest, _, _, _, _ => by
    intro position field
    simp only [Program.flattenOnto, Isa.runEntries, Program.eval?,
      Bool.false_or, Option.getD_some]
  | .fail rest, _, _, _, _ => fun _ _ => rfl

/--
The entries of cases run as the cases mean for the field loaded last. A case
that is not entered leaves the loaded field as it is.
-/
theorem Cases.runEntries_flattenOnto :
    ∀ (cases : Cases) {after : List Entry} {outcome : Outcome},
      (∀ entry ∈ cases.flattenOnto after, entry.ReadsWithin word.width) →
      isa.EndsIn features name word after outcome →
      ∀ position field,
        isa.runEntries features name word (cases.flattenOnto after) 0
            position field false =
          (cases.eval? isa features word field).getD outcome
  | .done, _, _, _, continues => continues
  | .case value body rest, after, outcome, readable, continues => by
    simp only [Cases.flattenOnto, List.forall_mem_cons] at readable
    have bodyEnds := body.endsIn_flattenOnto readable.2
      (Isa.endsIn_fail (rest.flattenOnto after))
    intro position field
    simp only [Cases.flattenOnto, Isa.runEntries, Cases.eval?]
    split
    · exact bodyEnds _ _
    · -- The body is skipped together with the `fail` behind it.
      have skip := @Isa.runEntries_skip isa features name word
        (body.flatten ++ [.fail]) (rest.flattenOnto after) (position + 1)
        field false
      simp only [List.length_append, List.length_singleton,
        Program.length_flatten, List.append_assoc,
        List.singleton_append] at skip
      rw [body.flattenOnto_eq, skip]
      refine rest.runEntries_flattenOnto (fun entry member => ?_) continues
        _ _
      exact readable.2 entry
        (body.mem_flattenOnto (List.mem_cons_of_mem _ member))

end

end Simulation

/--
A program whose entries read only fields of the word runs as it means, and to
pass all of it matches no instruction.
-/
theorem Isa.run_toTable
    {isa : Isa}
    {features : Features}
    {program : Program}
    {name : String}
    {width : Nat}
    {word : Word}
    (readable :
      ∀ entry ∈ (program.toTable name width).entries,
        entry.ReadsWithin word.width) :
    isa.run (program.toTable name width) word features =
      program.eval isa features word :=
  program.endsIn_flattenOnto readable (Isa.endsIn_fail []) 0 0

/-! ## Accepted programs -/

/-- A program whose table is valid runs as it means on words of its width. -/
theorem Isa.run_toTable_of_validate
    (isa : Isa)
    (features : Features)
    {program : Program}
    {name : String}
    {width formats predicates : Nat}
    (valid :
      (program.toTable name width).validate formats predicates = .ok ())
    {word : Word}
    (sameWidth : word.width = width) :
    isa.run (program.toTable name width) word features =
      program.eval isa features word := by
  rcases Table.exists_clear_of_validate valid with ⟨sets, clear, -⟩
  refine Isa.run_toTable ?_
  rw [sameWidth]
  exact clear.readsWithin

theorem Program.validate_of_finish
    {program : Program}
    {name : String}
    {width formats predicates : Nat}
    {table : Table}
    (accepted : program.finish name width formats predicates = .ok table) :
    table = program.toTable name width ∧
      table.validate formats predicates = .ok () := by
  unfold Program.finish at accepted
  split at accepted
  · cases accepted
  · dsimp only at accepted
    split at accepted
    · cases accepted
    · next valid =>
      cases accepted
      exact ⟨rfl, valid⟩

/--
The table of an accepted program does with every word of its width, under
every set of extensions and for every instruction set, what the program means.
-/
theorem Program.run_finish
    (isa : Isa)
    (features : Features)
    {program : Program}
    {name : String}
    {width formats predicates : Nat}
    {table : Table}
    (accepted : program.finish name width formats predicates = .ok table)
    {word : Word}
    (sameWidth : word.width = table.width) :
    isa.run table word features = program.eval isa features word := by
  rcases Program.validate_of_finish accepted with ⟨rfl, valid⟩
  exact isa.run_toTable_of_validate features valid sameWidth

/-- A switch in a case of another one, and a test that may fall through. -/
def nestedSwitches : Program :=
  .ofList
    [Statement.switch 0 2
      [Statement.case 1
        [Statement.switch 2 2
          [Statement.caseAny [0, 3]
            [Statement.check 4 1 1
              [Program.decode RiscV.Opcode.ecall.id RiscV.Format.bare.id]]]],
        Statement.case 2 [Statement.fail]],
      Program.decodeExpecting RiscV.Opcode.cNop.id RiscV.Format.bare.id
        0xf0 0]

/-- A word that passes the inner test, which an instruction set decodes. -/
theorem Program.run_finish_nestedSwitches :
    nestedSwitches.finish "nested" 8 RiscV.Format.count
        RiscV.Requirement.count = .ok (nestedSwitches.toTable "nested" 8) ∧
      (RiscV.isa .rv32).run (nestedSwitches.toTable "nested" 8)
          ⟨[0x1d], 0, 0x1d, by simp, by decide⟩ .all =
        nestedSwitches.eval (RiscV.isa .rv32) .all
          ⟨[0x1d], 0, 0x1d, by simp, by decide⟩ :=
  have accepted :
      nestedSwitches.finish "nested" 8 RiscV.Format.count
        RiscV.Requirement.count = .ok (nestedSwitches.toTable "nested" 8) :=
    rfl
  ⟨accepted, Program.run_finish _ _ accepted rfl⟩

end MachineCode
