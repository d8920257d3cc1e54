import MachineCode.Table.Validity

/-!
# Structured decode programs

Tables are written as structured programs: statements in sequence, tests with
a body, and switches over the value of a field. `Program.flatten` lays a
program out as a table. A body is skipped as a whole, and the body of a case
that does not end is followed by `fail`.

A skip distance has 16 bits. `Program.overflow?` is the first statement whose
body is too long for it, in the order in which bodies are completed.
-/

namespace MachineCode

mutual

/-- A sequence of statements; each holds the rest of the sequence. -/
inductive Program where
  | done
  /-- Enter the body if a field has a value. -/
  | check (start length value : Nat) (body rest : Program)
  /-- Enter the body if a predicate is granted. -/
  | require (predicate : Nat) (body rest : Program)
  /-- Enter the body of the case that a field selects, if there is one. -/
  | switch (start length : Nat) (cases : Cases) (rest : Program)
  /-- End with an opcode. -/
  | decode (opcode format : Nat) (rest : Program)
  /-- End with an opcode, expecting some bits to be zero or one. -/
  | decodeExpecting (opcode format zeros ones : Nat) (rest : Program)
  /-- End without an instruction. -/
  | fail (rest : Program)

/-- The cases of a switch, in order. -/
inductive Cases where
  | done
  | case (value : Nat) (body : Program) (rest : Cases)

end

namespace Program

/-- The sequence of statements that each wait for the rest. -/
def ofList (statements : List (Program → Program)) : Program :=
  statements.foldr (fun statement rest => statement rest) .done

/-- One sequence after another. -/
def append : Program → Program → Program
  | .done, last => last
  | .check start length value body rest, last =>
    .check start length value body (rest.append last)
  | .require predicate body rest, last =>
    .require predicate body (rest.append last)
  | .switch start length cases rest, last =>
    .switch start length cases (rest.append last)
  | .decode opcode format rest, last =>
    .decode opcode format (rest.append last)
  | .decodeExpecting opcode format zeros ones rest, last =>
    .decodeExpecting opcode format zeros ones (rest.append last)
  | .fail rest, last => .fail (rest.append last)

end Program

/-- The cases that each wait for the rest. -/
def Cases.ofList (cases : List (Cases → Cases)) : Cases :=
  cases.foldr (fun case rest => case rest) .done

/-- One body for several values. -/
def Cases.several (values : List Nat) (body : Program) (rest : Cases) :
    Cases :=
  values.foldr (fun value following => .case value body following) rest

mutual

/-- The number of entries of a laid-out program, added to `counted`. -/
def Program.sizeOnto : Program → Nat → Nat
  | .done, counted => counted
  | .check _ _ _ body rest, counted =>
    rest.sizeOnto (body.sizeOnto (counted + 1))
  | .require _ body rest, counted =>
    rest.sizeOnto (body.sizeOnto (counted + 1))
  | .switch _ _ cases rest, counted =>
    rest.sizeOnto (cases.sizeOnto (counted + 1))
  | .decode _ _ rest, counted => rest.sizeOnto (counted + 1)
  | .decodeExpecting _ _ _ _ rest, counted => rest.sizeOnto (counted + 2)
  | .fail rest, counted => rest.sizeOnto (counted + 1)

/-- The number of entries of laid-out cases, added to `counted`. -/
def Cases.sizeOnto : Cases → Nat → Nat
  | .done, counted => counted
  | .case _ body rest, counted =>
    rest.sizeOnto (body.sizeOnto (counted + 1) + 1)

end

/-- The number of entries of a laid-out program. -/
def Program.size (program : Program) : Nat :=
  program.sizeOnto 0

mutual

/-- The entries of a program, in front of `after`. -/
def Program.flattenOnto : Program → List Entry → List Entry
  | .done, after => after
  | .check start length value body rest, after =>
    .check start length value body.size ::
      body.flattenOnto (rest.flattenOnto after)
  | .require predicate body rest, after =>
    .require predicate body.size :: body.flattenOnto (rest.flattenOnto after)
  | .switch start length cases rest, after =>
    .extract start length :: cases.flattenOnto (rest.flattenOnto after)
  | .decode opcode format rest, after =>
    .decode opcode format :: rest.flattenOnto after
  | .decodeExpecting opcode format zeros ones rest, after =>
    .expect zeros ones :: .decode opcode format :: rest.flattenOnto after
  | .fail rest, after => .fail :: rest.flattenOnto after

/-- The entries of cases, in front of `after`. -/
def Cases.flattenOnto : Cases → List Entry → List Entry
  | .done, after => after
  | .case value body rest, after =>
    .filter value (body.size + 1) ::
      body.flattenOnto (.fail :: rest.flattenOnto after)

end

namespace Program

/-- The entries of a program. -/
def flatten (program : Program) : List Entry :=
  program.flattenOnto []

end Program

mutual

/-- Counting on from a number adds that number. -/
theorem Program.sizeOnto_eq :
    ∀ (program : Program) (counted : Nat),
      program.sizeOnto counted = program.sizeOnto 0 + counted
  | .done, _ => by simp [Program.sizeOnto]
  | .check _ _ _ body rest, counted => by
    simp only [Program.sizeOnto]
    rw [rest.sizeOnto_eq, body.sizeOnto_eq, rest.sizeOnto_eq (body.sizeOnto _),
      body.sizeOnto_eq (0 + 1)]
    omega
  | .require _ body rest, counted => by
    simp only [Program.sizeOnto]
    rw [rest.sizeOnto_eq, body.sizeOnto_eq, rest.sizeOnto_eq (body.sizeOnto _),
      body.sizeOnto_eq (0 + 1)]
    omega
  | .switch _ _ cases rest, counted => by
    simp only [Program.sizeOnto]
    rw [rest.sizeOnto_eq, cases.sizeOnto_eq,
      rest.sizeOnto_eq (cases.sizeOnto _), cases.sizeOnto_eq (0 + 1)]
    omega
  | .decode _ _ rest, counted => by
    simp only [Program.sizeOnto]
    rw [rest.sizeOnto_eq, rest.sizeOnto_eq (0 + 1)]
    omega
  | .decodeExpecting _ _ _ _ rest, counted => by
    simp only [Program.sizeOnto]
    rw [rest.sizeOnto_eq, rest.sizeOnto_eq (0 + 2)]
    omega
  | .fail rest, counted => by
    simp only [Program.sizeOnto]
    rw [rest.sizeOnto_eq, rest.sizeOnto_eq (0 + 1)]
    omega

theorem Cases.sizeOnto_eq :
    ∀ (cases : Cases) (counted : Nat),
      cases.sizeOnto counted = cases.sizeOnto 0 + counted
  | .done, _ => by simp [Cases.sizeOnto]
  | .case _ body rest, counted => by
    simp only [Cases.sizeOnto]
    rw [rest.sizeOnto_eq, body.sizeOnto_eq,
      rest.sizeOnto_eq (body.sizeOnto _ + 1), body.sizeOnto_eq (0 + 1)]
    omega

end

mutual

/-- Laying out adds as many entries as the size says. -/
theorem Program.length_flattenOnto :
    ∀ (program : Program) (after : List Entry),
      (program.flattenOnto after).length = program.size + after.length
  | .done, _ => by simp [Program.flattenOnto, Program.size, Program.sizeOnto]
  | .check _ _ _ body rest, after => by
    simp only [Program.flattenOnto, Program.size, Program.sizeOnto,
      List.length_cons, body.length_flattenOnto, rest.length_flattenOnto]
    rw [rest.sizeOnto_eq (body.sizeOnto _), body.sizeOnto_eq (0 + 1)]
    omega
  | .require _ body rest, after => by
    simp only [Program.flattenOnto, Program.size, Program.sizeOnto,
      List.length_cons, body.length_flattenOnto, rest.length_flattenOnto]
    rw [rest.sizeOnto_eq (body.sizeOnto _), body.sizeOnto_eq (0 + 1)]
    omega
  | .switch _ _ cases rest, after => by
    simp only [Program.flattenOnto, Program.size, Program.sizeOnto,
      List.length_cons, cases.length_flattenOnto, rest.length_flattenOnto]
    rw [rest.sizeOnto_eq (cases.sizeOnto _), cases.sizeOnto_eq (0 + 1)]
    omega
  | .decode _ _ rest, after => by
    simp only [Program.flattenOnto, Program.size, Program.sizeOnto,
      List.length_cons, rest.length_flattenOnto]
    rw [rest.sizeOnto_eq (0 + 1)]
    omega
  | .decodeExpecting _ _ _ _ rest, after => by
    simp only [Program.flattenOnto, Program.size, Program.sizeOnto,
      List.length_cons, rest.length_flattenOnto]
    rw [rest.sizeOnto_eq (0 + 2)]
    omega
  | .fail rest, after => by
    simp only [Program.flattenOnto, Program.size, Program.sizeOnto,
      List.length_cons, rest.length_flattenOnto]
    rw [rest.sizeOnto_eq (0 + 1)]
    omega

theorem Cases.length_flattenOnto :
    ∀ (cases : Cases) (after : List Entry),
      (cases.flattenOnto after).length = cases.sizeOnto 0 + after.length
  | .done, _ => by simp [Cases.flattenOnto, Cases.sizeOnto]
  | .case _ body rest, after => by
    simp only [Cases.flattenOnto, Cases.sizeOnto, List.length_cons,
      body.length_flattenOnto, rest.length_flattenOnto, Program.size]
    rw [rest.sizeOnto_eq (body.sizeOnto _ + 1), body.sizeOnto_eq (0 + 1)]
    omega

end

/-- The size of a program is the number of its entries. -/
@[simp]
theorem Program.length_flatten (program : Program) :
    program.flatten.length = program.size := by
  simp [Program.flatten, program.length_flattenOnto]

namespace Program

/-- The greatest skip distance. -/
def maxSkip : Nat :=
  65535

end Program

mutual

/-- The first statement from `position` on whose body is too long. -/
def Program.overflowFrom? : Program → Nat → Option Nat
  | .done, _ => none
  | .check _ _ _ body rest, position =>
    match body.overflowFrom? (position + 1) with
    | some found => some found
    | none =>
      if Program.maxSkip < body.size then
        some position
      else
        rest.overflowFrom? (position + 1 + body.size)
  | .require _ body rest, position =>
    match body.overflowFrom? (position + 1) with
    | some found => some found
    | none =>
      if Program.maxSkip < body.size then
        some position
      else
        rest.overflowFrom? (position + 1 + body.size)
  | .switch _ _ cases rest, position =>
    match cases.overflowFrom? (position + 1) with
    | some found => some found
    | none => rest.overflowFrom? (cases.sizeOnto (position + 1))
  | .decode _ _ rest, position => rest.overflowFrom? (position + 1)
  | .decodeExpecting _ _ _ _ rest, position =>
    rest.overflowFrom? (position + 2)
  | .fail rest, position => rest.overflowFrom? (position + 1)

/-- The first case from `position` on whose body is too long. -/
def Cases.overflowFrom? : Cases → Nat → Option Nat
  | .done, _ => none
  | .case _ body rest, position =>
    match body.overflowFrom? (position + 1) with
    | some found => some found
    | none =>
      if Program.maxSkip < body.size + 1 then
        some position
      else
        rest.overflowFrom? (position + 2 + body.size)

end

namespace Program

/-- The first statement whose body is too long to be skipped. -/
def overflow? (program : Program) : Option Nat :=
  program.overflowFrom? 0

/-- The table of a program; its last entry is `fail`. -/
def toTable (program : Program) (name : String) (width : Nat) : Table :=
  ⟨name, width, program.flattenOnto [.fail]⟩

/--
Lay a program out and check the table against an instruction set of
`formats` operand formats and `predicates` predicates.
-/
def finish
    (program : Program)
    (name : String)
    (width formats predicates : Nat) :
    Except TableError Table :=
  match program.overflow? with
  | some position => .error (.skipOverflow name position)
  | none =>
    let table := program.toTable name width
    match table.validate formats predicates with
    | .error error => .error error
    | .ok () => .ok table

end Program

end MachineCode
