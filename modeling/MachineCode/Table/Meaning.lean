import MachineCode.Table.Program
import MachineCode.Table.Run

/-!
# The meaning of a structured program

What a structured program does with a word, said without laying it out: tests
enter their body or go on, a switch runs the first case that the field
selects, and the first `decode` or `fail` ends the run. `none` means that the
statements were passed without an end.
-/

namespace MachineCode

/-- The outcome of a word that has ended a program. -/
abbrev Outcome :=
  Except DecodeError RawInstruction

/-- The outcome of a word that no instruction matches. -/
def Word.unknown (word : Word) : Outcome :=
  .error (.unknownOpcode word.address word.bytes)

mutual

/-- Run the statements; `none` means that they were passed. -/
def Program.eval? (isa : Isa) (features : Features) (word : Word) :
    Program → Option Outcome
  | .done => none
  | .check start length value body rest =>
    if bitField word.value start length = value then
      match body.eval? isa features word with
      | some outcome => some outcome
      | none => rest.eval? isa features word
    else
      rest.eval? isa features word
  | .require predicate body rest =>
    if isa.grants predicate features then
      match body.eval? isa features word with
      | some outcome => some outcome
      | none => rest.eval? isa features word
    else
      rest.eval? isa features word
  | .switch start length cases rest =>
    match cases.eval? isa features word (bitField word.value start length) with
    | some outcome => some outcome
    | none => rest.eval? isa features word
  | .decode opcode format _ => some (isa.finishDecode word opcode format false)
  | .decodeExpecting opcode format zeros ones _ =>
    some (isa.finishDecode word opcode format (violates word.value zeros ones))
  | .fail _ => some word.unknown

/-- Run the first case for the field; `none` means that there is none. -/
def Cases.eval?
    (isa : Isa)
    (features : Features)
    (word : Word)
    (field : Nat) :
    Cases → Option Outcome
  | .done => none
  | .case value body rest =>
    if field = value then
      some ((body.eval? isa features word).getD word.unknown)
    else
      rest.eval? isa features word field

end

/-- Run a program; passing all of it matches no instruction. -/
def Program.eval
    (isa : Isa)
    (features : Features)
    (word : Word)
    (program : Program) :
    Outcome :=
  (program.eval? isa features word).getD word.unknown

end MachineCode
