import MachineCode.Reading
import MachineCode.Register.Name

/-!
# C64x registers

The core has two sides, each with a file of 32 general registers: file A
belongs to side 1, file B to side 2. An instruction names registers of its
own side; over the cross path it can fetch one operand from the other side.

Sides are counted from 0 where they are encoded, and from 1 where they are
written.
-/

namespace MachineCode.C64x

/-- File A. -/
def fileA : RegisterFile :=
  ⟨"a", RegisterFile.sequential 32 .c64x .general 0 32⟩

/-- File B. -/
def fileB : RegisterFile :=
  ⟨"b", RegisterFile.sequential 32 .c64x .general 32 32⟩

/-- The general files of both sides. -/
def files : Banks :=
  ⟨fileA, fileB⟩

/-- The control register of an encoded number, if it is assigned. -/
def controlRegister? (number : Nat) : Option Register :=
  if Register.c64xControlExists number then
    some ⟨.c64x, .control, 64 + number, 32⟩
  else
    none

/-- The control registers. -/
def controlFile : RegisterFile :=
  ⟨"control", (List.range 32).map controlRegister?⟩

/-- A general register of a side, or of the other side when it crosses. -/
def general (side : Nat) (crossed : Bool) (number : Nat) : Read Register :=
  match files.getCrossed? side crossed number with
  | some register => .ok register
  | none => .error (.invalidRegister "a/b" number)

/-- A pair of general registers of a side. -/
def generalPair (side number : Nat) : Read Operand :=
  match files.file? side with
  | none => .error (.invalidRegister "a/b" number)
  | some file =>
    match file.pair number with
    | .ok list => .ok (.registers list)
    | .error error => .error error

end MachineCode.C64x
