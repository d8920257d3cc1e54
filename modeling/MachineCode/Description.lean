import MachineCode.Isa
import MachineCode.Operand.Text

/-!
# Instruction sets given as data

A description lists everything an instruction set consists of: tables,
operand formats as sequences of reading steps, opcode descriptions, preferred
forms. Its operands are written in the architecture-neutral spelling.
-/

namespace MachineCode

/-- One step in reading the operands of a word. -/
inductive ReadStep where
  | register (file : RegisterFile) (start length : Nat)
  /-- A register whose number is not part of the word. -/
  | fixedRegister (file : RegisterFile) (number : Nat)
  | unsigned (start length : Nat)
  | signed (start length : Nat)
  | bit (position : Nat)
  /-- An immediate whose bits are scattered over the word. -/
  | gathered (pieces : List BitPiece) (bits : Nat)
  | relative (start length : Nat) (scale : Int) (alignment : Address)
  | mode (start length : Nat) (modes : List (Option Nat)) (field : String)
  | registers (file : RegisterFile) (start length count : Nat)
  | pair (file : RegisterFile) (start length : Nat)
  | float (start : Nat)
  | memory
      (file : RegisterFile)
      (start length : Nat)
      (displacementStart displacementLength : Nat)
      (mode : IndexMode)
  /-- An operand that is not part of the word. -/
  | operand (operand : Operand)
  | specifics (specifics : Specifics)
  /-- The encoding is doubtful if the bit is set. -/
  | doubtfulIf (position : Nat)
  | unsupported (what : String)

namespace ReadStep

/-- The reading with one more operand. -/
def push (reading : Reading) (operand : Operand) : Reading :=
  { reading with operands := reading.operands ++ [operand] }

/-- Take one step. -/
def run (word : Word) (reading : Reading) : ReadStep → Read Reading
  | .register file start length => do
    let number ← word.field start length
    let register ← file.find number
    return push reading (.register register)
  | .fixedRegister file number => do
    let register ← file.find number
    return push reading (.register register)
  | .unsigned start length => do
    let value ← word.field start length
    return push reading (.unsigned value length)
  | .signed start length => do
    let value ← word.field start length
    return push reading (.signedField value length)
  | .bit position => do
    let set ← word.flag position
    return push reading (.unsigned set.toNat 1)
  | .gathered pieces bits =>
    return push reading (.unsigned (gather word.value pieces) bits)
  | .relative start length scale alignment => do
    let raw ← word.field start length
    return push reading
      (.relativeField raw length scale word.address alignment)
  | .mode start length modes field => do
    let number ← word.field start length
    let selected ← selectMode modes number field
    return push reading (.unsigned selected 64)
  | .registers file start length count => do
    let first ← word.field start length
    let list ← file.consecutive first count
    return push reading (.registers list)
  | .pair file start length => do
    let number ← word.field start length
    let list ← file.pair number
    return push reading (.registers list)
  | .float start => do
    let immediate ← word.field start 8
    return push reading (.float (.ofImmediate8 immediate))
  | .memory file start length displacementStart displacementLength update =>
    do
    let number ← word.field start length
    let base ← file.find number
    let displacement ← word.signedField displacementStart displacementLength
    return push reading
      (.memory { base := some base, displacement, size := 4, mode := update })
  | .operand fixed => return push reading fixed
  | .specifics facts => return { reading with specifics := facts }
  | .doubtfulIf position => do
    let set ← word.flag position
    return { reading with doubtful := reading.doubtful || set }
  | .unsupported what => throw (.unsupported what)

/-- Take the steps of a format in order, up to the first that fails. -/
def runAll (word : Word) (steps : List ReadStep) : Read Reading :=
  steps.foldlM (run word) {}

end ReadStep

/-- How a described preferred form rearranges its operands. -/
inductive Rearrangement where
  | same
  /-- The rule never applies. -/
  | never
  /-- The first operand is dropped; there must be one. -/
  | dropFirst
  /-- Two operands change places; there must be exactly two. -/
  | swapTwo
deriving DecidableEq, Repr

/-- The rearranged operands. -/
def Rearrangement.apply : Rearrangement → List Operand → Option (List Operand)
  | .same, operands => some operands
  | .never, _ => none
  | .dropFirst, [] => none
  | .dropFirst, _ :: operands => some operands
  | .swapTwo, [first, second] => some [second, first]
  | .swapTwo, _ => none

/-- The size in the low four bits of the first byte; fifteen is reserved. -/
def selectByNibble : List UInt8 → Option Nat
  | [] => none
  | byte :: _ => if byte.toNat % 16 = 15 then none else some (byte.toNat % 16)

/-- An instruction set as a list of its parts. -/
structure Description where
  architecture : Architecture
  widthRule : WidthRule
  /-- The tables, each with the number of bytes of its words. -/
  tables : List (Nat × Table)
  formats : List (List ReadStep)
  /-- The extensions that each predicate asks for. -/
  predicates : List Features
  infos : List OpcodeInfo
  aliases : List Alias
  skipSize : Nat := 1

namespace Description

/-- The operands in the neutral spelling. -/
def render (form : Form) : Rendering :=
  { operandText := ", ".intercalate (form.operands.map Operand.text) }

/-- The described instruction set. -/
def isa (description : Description) : Isa :=
  { architecture := description.architecture
    widthRule := description.widthRule
    table? := fun size => List.lookup size description.tables
    grants := fun predicate features =>
      match description.predicates[predicate]? with
      | some needed => features.containsAll needed
      | none => false
    readOperands := fun format word =>
      match description.formats[format]? with
      | some steps => ReadStep.runAll word steps
      | none => .error (.unknownFormat format)
    info? := fun opcode => description.infos[opcode]?
    aliases := description.aliases
    render := fun form _ _ => render form
    skipSize := fun _ => description.skipSize }

end Description

end MachineCode
