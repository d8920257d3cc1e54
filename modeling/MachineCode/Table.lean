import MachineCode.Bits

/-!
# Decode tables

A decode table is a flat decision tree for words of one width. Entries are
visited from the first one on. A test that fails skips a number of entries,
always forwards, counted from the entry that follows; a test that holds goes
on with that entry.

A field can be loaded once and compared with several values (`extract` and
`filter`), or tested on the spot (`check`).
-/

namespace MachineCode

/-- One step of a decode table. -/
inductive Entry where
  /-- Load the field of `length` bits at `start`. -/
  | extract (start length : Nat)
  /-- Go on if the loaded field has the value. -/
  | filter (value skip : Nat)
  /-- Go on if the field at `start` has the value; nothing is loaded. -/
  | check (start length value skip : Nat)
  /-- Go on if the instruction set grants the predicate. -/
  | require (predicate skip : Nat)
  /--
  Bits that should be zero or one for the `decode` that follows. Others are
  accepted, but the result is marked.
  -/
  | expect (zeros ones : Nat)
  /-- End with an opcode, whose operands have the given format. -/
  | decode (opcode format : Nat)
  /-- End without an instruction. -/
  | fail
deriving DecidableEq, Repr

namespace Entry

/-- Whether no later entry is visited. -/
def isTerminal : Entry → Bool
  | .decode _ _ | .fail => true
  | _ => false

/-- Whether the entry yields an instruction. -/
def isDecode : Entry → Bool
  | .decode _ _ => true
  | _ => false

/-- The number of entries that a failed test skips. -/
def skip? : Entry → Option Nat
  | .filter _ skip => some skip
  | .check _ _ _ skip => some skip
  | .require _ skip => some skip
  | _ => none

end Entry

/-- Whether a word violates the expectation of fixed bits. -/
def violates (value zeros ones : Nat) : Bool :=
  value &&& zeros ≠ 0 || value &&& ones ≠ ones

/-- The decision tree for words of one width. -/
structure Table where
  name : String
  /-- The width of the words in bits. -/
  width : Nat
  entries : List Entry
deriving DecidableEq, Repr

namespace Table

/-- The number of entries. -/
def size (table : Table) : Nat :=
  table.entries.length

/-- Whether there is no entry at all. -/
def isEmpty (table : Table) : Bool :=
  table.entries.isEmpty

/-- The entry at a position. -/
def get? (table : Table) (position : Nat) : Option Entry :=
  table.entries[position]?

end Table

end MachineCode
