import MachineCode.ControlFlow
import MachineCode.Detail
import MachineCode.Operation
import MachineCode.Text.Hex

/-!
# Instructions

One item of a disassembly: an instruction with its description and its text,
or bytes that are shown as data. An item is data exactly when it has no
opcode.

`Instruction.line` is the listing line of an item: the address, the bytes in
a column for eight of them, and the text.
-/

namespace MachineCode

/-- One item of a disassembly. -/
structure Instruction where
  address : Address
  /-- The number of bytes the item takes. -/
  size : Nat
  bytes : List UInt8
  mnemonic : String
  /-- The number of the opcode within its instruction set. -/
  opcode : Option Nat := none
  operation : Operation := .other 0
  /-- Text that stands before the mnemonic. -/
  leading : Option String := none
  operandText : String := ""
  operands : List Operand := []
  controlFlow : ControlFlow := .sequential
  detail : Option Detail := none
deriving DecidableEq, Repr

namespace Instruction

/-- Bytes shown as data under the given mnemonic. -/
def data (address : Address) (bytes : List UInt8) (mnemonic : String) :
    Instruction :=
  { address, size := bytes.length, bytes, mnemonic
    operandText :=
      ", ".intercalate (bytes.map fun byte => "0x" ++ Text.byteDigits byte) }

/-- The address just after the item. -/
def endAddress (instruction : Instruction) : Address :=
  instruction.address.advance instruction.size

/-- Whether the item is data and no instruction. -/
def isData (instruction : Instruction) : Bool :=
  instruction.opcode.isNone

/-- Whether control may go anywhere but to the next instruction. -/
def isBranch (instruction : Instruction) : Bool :=
  instruction.controlFlow.isBranch

/-- Whether the item calls a subroutine. -/
def isCall (instruction : Instruction) : Bool :=
  instruction.controlFlow.isCall

/-- Whether the item returns from a subroutine. -/
def isReturn (instruction : Instruction) : Bool :=
  instruction.controlFlow.isReturn

/-- Whether the item ends a straight run of instructions. -/
def isTerminator (instruction : Instruction) : Bool :=
  instruction.controlFlow.isBranch

/-- The assembly text. -/
def text (instruction : Instruction) : String :=
  let leading :=
    match instruction.leading with
    | some words => words ++ " "
    | none => ""
  let operands :=
    if instruction.operandText.isEmpty then ""
    else " " ++ instruction.operandText
  leading ++ instruction.mnemonic ++ operands

/-- The number of bytes that the listing column is made for. -/
def columnBytes : Nat :=
  8

/-- The listing line: address, bytes and text. -/
def line (instruction : Instruction) : String :=
  let bytes := instruction.bytes.map fun byte => Text.byteDigits byte ++ " "
  let filling :=
    List.replicate (columnBytes - instruction.bytes.length) "   "
  Text.paddedHex 8 instruction.address.toNat ++ ":  " ++
    String.join bytes ++ String.join filling ++ " " ++ instruction.text

end Instruction

end MachineCode
