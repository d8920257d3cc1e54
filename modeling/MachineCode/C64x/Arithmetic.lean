import MachineCode.C64x.Slot

/-!
# Arithmetic and control formats

The operand formats of the arithmetic units and of the control instructions.
The units .L, .S and .M take the second source over the cross path if the
cross bit is set; .D takes none. The first source is a register or a constant
of five bits.
-/

namespace MachineCode.C64x

/-- What the five bits of the first source stand for. -/
inductive FirstSource where
  | register
  | signed
  | unsigned
deriving DecidableEq, Repr

namespace FirstSource

/-- The operand that the five bits stand for. -/
def operand (source : FirstSource) (side bits : Nat) : Read Operand :=
  match source with
  | .register => do return .register (← general side false bits)
  | .signed => return .signedField bits 5
  | .unsigned => return .unsigned bits 5

end FirstSource

/-- The fields that most arithmetic instructions share. -/
structure Fields where
  destination : Nat
  second : Nat
  first : Nat
  side : Nat
deriving DecidableEq, Repr

/-- Read the shared fields. -/
def Fields.read (word : Word) : Read Fields := do
  let destination ← word.field 23 5
  let second ← word.field 18 5
  let first ← word.field 13 5
  let side ← word.field 1 1
  return { destination, second, first, side }

/-- First source, second source, destination. -/
def readBinary (unit : FunctionalUnit) (source : FirstSource) (word : Word) :
    Read Reading := do
  let fields ← Fields.read word
  let crossed ← word.flag 12
  let facts ← Slot.facts { unit, side := fields.side, crossed } word
  let first ← source.operand fields.side fields.first
  let second ← general fields.side crossed fields.second
  let destination ← general fields.side false fields.destination
  return reading facts [first, .register second, .register destination]

/-- Sources and a pair as destination; the second source may be a pair. -/
def readLong (pairSource : Bool) (word : Word) : Read Reading := do
  let fields ← Fields.read word
  let crossed ← word.flag 12
  if pairSource && crossed then
    throw (.unsupported "register pair across the cross path")
  let facts ← Slot.facts { unit := .l, side := fields.side, crossed } word
  let first ← general fields.side false fields.first
  let second ←
    if pairSource then
      generalPair fields.side fields.second
    else
      Operand.register <$> general fields.side crossed fields.second
  let destination ← generalPair fields.side fields.destination
  return reading facts [.register first, second, destination]

/-- Second source, destination. -/
def readUnary (word : Word) : Read Reading := do
  let fields ← Fields.read word
  let crossed ← word.flag 12
  let facts ← Slot.facts { unit := .l, side := fields.side, crossed } word
  let source ← general fields.side crossed fields.second
  let destination ← general fields.side false fields.destination
  return reading facts [.register source, .register destination]

/-- The shifted value, the amount, the destination. -/
def readShift (amount : FirstSource) (word : Word) : Read Reading := do
  let fields ← Fields.read word
  let crossed ← word.flag 12
  let facts ← Slot.facts { unit := .s, side := fields.side, crossed } word
  let source ← general fields.side crossed fields.second
  let amount ← amount.operand fields.side fields.first
  let destination ← general fields.side false fields.destination
  return reading facts [.register source, amount, .register destination]

/-- Second source, first source, destination, without the cross path. -/
def readAddress (source : FirstSource) (word : Word) : Read Reading := do
  let fields ← Fields.read word
  let facts ← Slot.facts { unit := .d, side := fields.side } word
  let second ← general fields.side false fields.second
  let first ← source.operand fields.side fields.first
  let destination ← general fields.side false fields.destination
  return reading facts [.register second, first, .register destination]

/-- A constant, made from the sixteen bits of the word, and a destination. -/
def readConstant (constant : Nat → Operand) (word : Word) : Read Reading := do
  let bits ← word.field 7 16
  let side ← word.field 1 1
  let facts ← Slot.facts { unit := .s, side } word
  let destination ← general side false (← word.field 23 5)
  return reading facts [constant bits, .register destination]

/-- A number of cycles; more than nine cannot be asked for. -/
def readNop (word : Word) : Read Reading := do
  let count ← word.field 13 4
  if 8 < count then
    throw (.reserved "nop count" count)
  let facts ← Slot.facts { unit := .none } word
  return reading facts [.unsigned (count + 1) 4]

/-- No operands at all. -/
def readIdle (word : Word) : Read Reading := do
  let facts ← Slot.facts { unit := .none } word
  return reading facts []

/-- The bits that number the words within a fetch packet. -/
def fetchPacketMask : Address :=
  0x1f

/-- A target relative to the fetch packet that holds the branch. -/
def readBranch (word : Word) : Read Reading := do
  let side ← word.field 1 1
  let facts ← Slot.facts { unit := .s, side } word
  let displacement ← word.field 7 21
  return reading facts
    [.relativeField displacement 21 4 word.address fetchPacketMask]

/-- A target in a register. -/
def readBranchRegister (word : Word) : Read Reading := do
  let side ← word.field 1 1
  let crossed ← word.flag 12
  let facts ← Slot.facts { unit := .s, side, crossed } word
  let target ← general side crossed (← word.field 18 5)
  return reading facts [.register target]

/-- A return through a control register. -/
def readBranchReturn (word : Word) : Read Reading := do
  let side ← word.field 1 1
  let facts ← Slot.facts { unit := .s, side } word
  let pointer ← controlFile.find (← word.field 18 5)
  return reading facts [.register pointer]

/-- From a general to a control register. -/
def readMoveToControl (word : Word) : Read Reading := do
  let side ← word.field 1 1
  let crossed ← word.flag 12
  let facts ← Slot.facts { unit := .s, side, crossed } word
  let source ← general side crossed (← word.field 18 5)
  let control ← controlFile.find (← word.field 23 5)
  return reading facts [.register source, .register control]

/-- From a control to a general register. -/
def readMoveFromControl (word : Word) : Read Reading := do
  let side ← word.field 1 1
  let facts ← Slot.facts { unit := .s, side } word
  let control ← controlFile.find (← word.field 18 5)
  let destination ← general side false (← word.field 23 5)
  return reading facts [.register control, .register destination]

end MachineCode.C64x
