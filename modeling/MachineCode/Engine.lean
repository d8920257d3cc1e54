import MachineCode.Instruction
import MachineCode.Table.Run

/-!
# Decoding one instruction

An engine is an instruction set with the options of its user. It reads the
first word of an input, runs the table for words of that size, puts the result
into its preferred form, and describes that form.

The flow of control follows from the operation, from the first branch target
among the operands, and from the condition: a branch under a condition other
than `always` may fall through.
-/

namespace MachineCode

/-- An instruction set with the options of its user. -/
structure Engine where
  isa : Isa
  options : Options := {}

/-- A decoded instruction. -/
structure Decoded where
  instruction : Instruction
  status : DecodeStatus
deriving DecidableEq, Repr

namespace Engine

/-- Where control goes after an instruction of `size` bytes. -/
def flow
    (info : OpcodeInfo)
    (operands : List Operand)
    (specifics : Specifics)
    (address : Address)
    (size : Nat) :
    ControlFlow :=
  let next := address.advance size
  let target := operands.findSome? Operand.target?
  let condition :=
    (info.condition.or specifics.condition?).filter fun condition =>
      condition ≠ .always
  match info.operation with
  | .jump | .conditionalJump =>
    match target, condition with
    | some target, some condition =>
      .conditionalBranch target condition next
    | some target, none => .branch target
    | none, _ => .indirectBranch []
  | .call =>
    match target with
    | some target => .call target next
    | none => .indirectCall next
  | .ret => .ret
  | .syscall => .syscall
  | .halt => .halt
  | _ => .sequential

/-- The instruction of a preferred form. -/
def describe
    (engine : Engine)
    (word : Word)
    (form : Form)
    (info : OpcodeInfo)
    (specifics : Specifics)
    (wantDetail : Bool) :
    Instruction :=
  let rendering := engine.isa.render form specifics engine.options
  { address := word.address
    size := word.size
    bytes := word.bytes
    mnemonic := info.mnemonic
    opcode := some form.opcode
    operation := info.operation
    leading := rendering.leading
    operandText := rendering.operandText
    operands := form.operands
    controlFlow := flow info form.operands specifics word.address word.size
    detail :=
      if wantDetail then
        some (engine.isa.completeDetail (info.detail form.operands specifics))
      else
        none }

/-- Run the table for words of this size. -/
def decodeRaw (engine : Engine) (word : Word) :
    Except DecodeError RawInstruction :=
  match engine.isa.table? word.size with
  | none => .error (.invalidEncoding word.address (.noTable word.size))
  | some table => engine.isa.run table word engine.options.features

/-- Put a raw instruction into its preferred form and describe it. -/
def finishRaw
    (engine : Engine)
    (word : Word)
    (raw : RawInstruction)
    (wantDetail : Bool) :
    Except DecodeError Decoded :=
  let form := Alias.canonicalize engine.isa.aliases raw.form
  match engine.isa.info? form.opcode with
  | none =>
    .error (.invalidEncoding word.address (.undescribedOpcode form.opcode))
  | some info =>
    .ok
      { instruction :=
          engine.describe word form info raw.specifics wantDetail
        status := raw.status }

/-- Decode a word. -/
def decodeWord (engine : Engine) (word : Word) (wantDetail : Bool) :
    Except DecodeError Decoded :=
  match engine.decodeRaw word with
  | .error error => .error error
  | .ok raw => engine.finishRaw word raw wantDetail

/-- Take the first word off an input. -/
def readWord (engine : Engine) (input : List UInt8) (address : Address) :
    Except DecodeError Word :=
  engine.isa.widthRule.readWord engine.isa.byteOrder input address

/-- Decode the first instruction of an input. -/
def decodeWith
    (engine : Engine)
    (input : List UInt8)
    (address : Address)
    (wantDetail : Bool) :
    Except DecodeError Decoded :=
  match engine.readWord input address with
  | .error error => .error error
  | .ok word => engine.decodeWord word wantDetail

/-- Decode the first instruction, with detail if the options ask for it. -/
def decode (engine : Engine) (input : List UInt8) (address : Address) :
    Except DecodeError Decoded :=
  engine.decodeWith input address engine.options.detail

/-- The mnemonic of an opcode. -/
def opcodeName? (engine : Engine) (opcode : Nat) : Option String :=
  (engine.isa.info? opcode).map OpcodeInfo.mnemonic

/-- The number of bytes given up where nothing decodes. -/
def skipSize (engine : Engine) : Nat :=
  engine.isa.skipSize engine.options.features

theorem finishRaw_size
    {engine : Engine}
    {word : Word}
    {raw : RawInstruction}
    {wantDetail : Bool}
    {decoded : Decoded}
    (success : engine.finishRaw word raw wantDetail = .ok decoded) :
    decoded.instruction.size = word.size := by
  unfold finishRaw at success
  dsimp only at success
  split at success
  · cases success
  · cases success
    rfl

/-- A decoded instruction has at least one byte. -/
theorem decodeWith_size_pos
    {engine : Engine}
    {input : List UInt8}
    {address : Address}
    {wantDetail : Bool}
    {decoded : Decoded}
    (success :
      engine.decodeWith input address wantDetail = .ok decoded) :
    0 < decoded.instruction.size := by
  unfold decodeWith at success
  split at success
  · cases success
  · rename_i word _
    unfold decodeWord at success
    split at success
    · cases success
    · rw [finishRaw_size success]
      exact word.size_pos

end Engine

end MachineCode
