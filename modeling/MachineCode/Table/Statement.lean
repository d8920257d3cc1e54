import MachineCode.Table.Program

/-!
# Writing decode programs

The statements of a decode program, written as lists. A statement waits for
the statements that follow it, and a case for the cases that follow it.
-/

namespace MachineCode

/-- A statement that waits for the rest of its sequence. -/
abbrev Statement :=
  Program → Program

/-- A case that waits for the rest of its switch. -/
abbrev Case :=
  Cases → Cases

namespace Statement

/-- Enter the body if a field has a value. -/
def check (start length value : Nat) (body : List Statement) : Statement :=
  Program.check start length value (Program.ofList body)

/-- Enter the body if a predicate is granted. -/
def require (predicate : Nat) (body : List Statement) : Statement :=
  Program.require predicate (Program.ofList body)

/-- Choose among cases by a field. -/
def switch (start length : Nat) (cases : List Case) : Statement :=
  Program.switch start length (Cases.ofList cases)

/-- End without an instruction. -/
def fail : Statement :=
  Program.fail

/-- The case of one value. -/
def case (value : Nat) (body : List Statement) : Case :=
  Cases.case value (Program.ofList body)

/-- The cases of several values with one body. -/
def caseAny (values : List Nat) (body : List Statement) : Case :=
  Cases.several values (Program.ofList body)

end Statement

end MachineCode
