import MachineCode.Error
import MachineCode.Word

/-!
# Instruction lengths

Some instruction sets use words of one size; in others the leading bytes of an
instruction tell its size. `WidthRule.readWord` takes the first word off an
input. It asks for the leading bytes first, then for as many bytes as they
select, and only then looks at whether such a word can exist.
-/

namespace MachineCode

/-- How the size of an instruction is found. -/
inductive WidthRule where
  /-- Every instruction has the same number of bytes. -/
  | fixed (size : Nat)
  /--
  The first `least` bytes select the size, which is at most `most`; no
  selection means a reserved length.
  -/
  | selected (least most : Nat) (select : List UInt8 → Option Nat)

namespace WidthRule

/-- The number of bytes without which no size is known. -/
def least : WidthRule → Nat
  | .fixed size => size
  | .selected least _ _ => least

/-- The greatest size of an instruction. -/
def most : WidthRule → Nat
  | .fixed size => size
  | .selected _ most _ => most

/-- Whether every instruction has the same size. -/
def isFixed : WidthRule → Bool
  | .fixed _ => true
  | .selected _ _ _ => false

/-- The size that an input of at least `least` bytes selects. -/
def size? (rule : WidthRule) (input : List UInt8) : Option Nat :=
  match rule with
  | .fixed size => some size
  | .selected least _ select => select (input.take least)

/-- Take the first word off an input. -/
def readWord
    (rule : WidthRule)
    (order : ByteOrder)
    (input : List UInt8)
    (address : Address) :
    Except DecodeError Word :=
  if input.length < rule.least then
    .error (.insufficientInput address rule.least input.length)
  else
    match rule.size? input with
    | none => .error (.invalidEncoding address .reservedLength)
    | some size =>
      if input.length < size then
        .error (.insufficientInput address size input.length)
      else
        match Word.ofBytes? order size address input with
        | none => .error (.invalidEncoding address .unsupportedLength)
        | some word => .ok word

end WidthRule

end MachineCode
