import MachineCode.Isa

/-!
# Running a table on a word

The entries are visited in order; a failed test leaves a number of entries to
be skipped, and the run ends at the first terminal entry. Since the table only
leads forwards, one pass over its entries is enough, and every run ends.

A run that leaves the table or asks for a field that the word does not have
ends with the position where it happened.
-/

namespace MachineCode

/-- Whether a decoded word had all the bits its encoding requires. -/
inductive DecodeStatus where
  | success
  /-- Some bits are not as the encoding requires them to be. -/
  | softFail
deriving DecidableEq, Repr

/-- An instruction as the table and its format give it. -/
structure RawInstruction where
  opcode : Nat
  operands : List Operand
  status : DecodeStatus
  specifics : Specifics
deriving DecidableEq, Repr

namespace RawInstruction

/-- The opcode and operands of a raw instruction. -/
def form (raw : RawInstruction) : Form :=
  ⟨raw.opcode, raw.operands⟩

end RawInstruction

namespace Isa

/-- Decode a word whose opcode and operand format are found. -/
def finishDecode
    (isa : Isa)
    (word : Word)
    (opcode format : Nat)
    (violated : Bool) :
    Except DecodeError RawInstruction :=
  match isa.readOperands format word with
  | .error cause => .error (.invalidOperand word.address cause)
  | .ok reading =>
    .ok
      { opcode
        operands := reading.operands
        status := if violated || reading.doubtful then .softFail else .success
        specifics := reading.specifics }

/--
Visit the entries of a table. `pending` entries are to be skipped first,
`field` is the value loaded last, and `violated` tells whether an expectation
failed.
-/
def runEntries
    (isa : Isa)
    (features : Features)
    (name : String)
    (word : Word) :
    List Entry →
      (pending position field : Nat) →
      (violated : Bool) →
      Except DecodeError RawInstruction
  | [], pending, position, _, _ =>
    .error (.malformedTable name (position + pending))
  | _ :: rest, pending + 1, position, field, violated =>
    runEntries isa features name word rest pending (position + 1) field
      violated
  | entry :: rest, 0, position, field, violated =>
    match entry with
    | .extract start length =>
      match word.field? start length with
      | none => .error (.malformedTable name position)
      | some loaded =>
        runEntries isa features name word rest 0 (position + 1) loaded
          violated
    | .filter value skip =>
      runEntries isa features name word rest
        (if field = value then 0 else skip) (position + 1) field violated
    | .check start length value skip =>
      match word.field? start length with
      | none => .error (.malformedTable name position)
      | some found =>
        runEntries isa features name word rest
          (if found = value then 0 else skip) (position + 1) field violated
    | .require predicate skip =>
      runEntries isa features name word rest
        (if isa.grants predicate features then 0 else skip) (position + 1)
        field violated
    | .expect zeros ones =>
      runEntries isa features name word rest 0 (position + 1) field
        (violated || violates word.value zeros ones)
    | .decode opcode format => isa.finishDecode word opcode format violated
    | .fail => .error (.unknownOpcode word.address word.bytes)

/-- Run a table on a word. -/
def run (isa : Isa) (table : Table) (word : Word) (features : Features) :
    Except DecodeError RawInstruction :=
  isa.runEntries features table.name word table.entries 0 0 0 false

end Isa

end MachineCode
