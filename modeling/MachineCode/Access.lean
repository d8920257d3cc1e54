/-!
# Access to an operand

Whether an instruction reads an operand, writes it, does both or does
neither.
-/

namespace MachineCode

/-- How an instruction uses an operand. -/
structure Access where
  reads : Bool
  writes : Bool
deriving DecidableEq, Repr

namespace Access

/-- The operand is not touched. -/
def none : Access :=
  ⟨false, false⟩

/-- The operand is read. -/
def read : Access :=
  ⟨true, false⟩

/-- The operand is written. -/
def write : Access :=
  ⟨false, true⟩

/-- The operand is read, then written. -/
def readWrite : Access :=
  ⟨true, true⟩

end Access

end MachineCode
