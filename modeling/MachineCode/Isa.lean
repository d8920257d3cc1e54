import MachineCode.Alias
import MachineCode.Opcode
import MachineCode.Options
import MachineCode.Reading
import MachineCode.Table
import MachineCode.Word.Width

/-!
# Instruction sets

All that decoding needs to know of an instruction set: its tables, one for
each width of word; the operand formats that the tables name; the opcodes,
their descriptions and preferred forms; and the assembly language.
-/

namespace MachineCode

/-- The text of an instruction around its mnemonic. -/
structure Rendering where
  /-- Text before the mnemonic. -/
  leading : Option String := none
  operandText : String := ""
deriving DecidableEq, Repr

/-- An instruction set. -/
structure Isa where
  architecture : Architecture
  /-- The byte order of instruction words. -/
  byteOrder : ByteOrder := architecture.byteOrder
  widthRule : WidthRule
  /-- The table for words of a number of bytes. -/
  table? : Nat → Option Table
  /-- Whether a predicate of the tables is granted by the extensions. -/
  grants : Nat → Features → Bool
  /-- Read the operands of a word in one of the formats. -/
  readOperands : Nat → Word → Except OperandError Reading
  /-- The description of an opcode. -/
  info? : Nat → Option OpcodeInfo
  /-- The preferred forms, in the order in which they are tried. -/
  aliases : List Alias := []
  /-- The text of a form. -/
  render : Form → Specifics → Options → Rendering
  /-- The number of bytes given up where nothing decodes. -/
  skipSize : Features → Nat
  /-- The last corrections to a detail record. -/
  completeDetail : Detail → Detail := id

end MachineCode
