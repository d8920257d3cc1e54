import MachineCode.Bits
import MachineCode.Text.Hex

/-!
# Decoding errors

Why bytes do not decode to an instruction. `OperandError` is a fault of one
operand, `DecodeError` the outcome of a whole decoding; each has one wording.
-/

namespace MachineCode

/-- Why an operand could not be decoded. -/
inductive OperandError where
  /-- The field is empty or reaches beyond the word. -/
  | fieldOutOfRange (start length : Nat)
  /-- The register file has no register of this number. -/
  | invalidRegister (file : String) (number : Nat)
  /-- A register pair started at an odd number. -/
  | oddRegisterPair (number : Nat)
  /-- The field holds a value without a meaning. -/
  | reserved (field : String) (value : Nat)
  | unsupported (what : String)
  /-- The instruction set has no operand format of this number. -/
  | unknownFormat (number : Nat)
deriving DecidableEq, Repr

/-- The wording of an operand error. -/
def OperandError.message : OperandError → String
  | .fieldOutOfRange start length =>
    "field " ++ toString start ++ "+" ++ toString length ++
      " outside the instruction word"
  | .invalidRegister file number =>
    "no " ++ file ++ " register with encoding " ++ toString number
  | .oddRegisterPair number =>
    "register pair must start at an even register, got " ++ toString number
  | .reserved field value =>
    "reserved " ++ field ++ " value " ++ Text.hex value
  | .unsupported what => "unsupported encoding: " ++ what
  | .unknownFormat number => "unknown operand decoder " ++ toString number

/-- Why a word has no place in its instruction set. -/
inductive EncodingFault where
  /-- The leading bytes select no instruction length. -/
  | reservedLength
  /-- The selected length is zero or more than eight bytes. -/
  | unsupportedLength
  /-- No table decodes words of this many bytes. -/
  | noTable (size : Nat)
  /-- The table names an opcode that is not described. -/
  | undescribedOpcode (opcode : Nat)
deriving DecidableEq, Repr

/-- The wording of an encoding fault. -/
def EncodingFault.message : EncodingFault → String
  | .reservedLength => "reserved instruction length"
  | .unsupportedLength => "unsupported instruction length"
  | .noTable size =>
    "no decode table for " ++ toString size ++ "-byte instructions"
  | .undescribedOpcode opcode =>
    "opcode " ++ toString opcode ++ " has no description"

/-- Why bytes did not decode. -/
inductive DecodeError where
  /-- The input ends before the instruction, or its leading bytes, do. -/
  | insufficientInput (address : Address) (needed available : Nat)
  /-- No entry of the table matches the word. -/
  | unknownOpcode (address : Address) (bytes : List UInt8)
  | invalidOperand (address : Address) (cause : OperandError)
  | invalidEncoding (address : Address) (fault : EncodingFault)
  /-- The table led outside itself or outside the word. -/
  | malformedTable (table : String) (position : Nat)
deriving DecidableEq, Repr

namespace DecodeError

/-- The wording of a decoding error. -/
def message : DecodeError → String
  | .insufficientInput address needed available =>
    "truncated instruction at " ++ Text.hex address.toNat ++ ": need " ++
      toString needed ++ " bytes, have " ++ toString available
  | .unknownOpcode address bytes =>
    "unknown opcode at " ++ Text.hex address.toNat ++ ": [" ++
      ", ".intercalate (bytes.map Text.byteDigits) ++ "]"
  | .invalidOperand address _ =>
    "invalid operand at " ++ Text.hex address.toNat
  | .invalidEncoding address fault =>
    "invalid encoding at " ++ Text.hex address.toNat ++ ": " ++ fault.message
  | .malformedTable table position =>
    "malformed decode table " ++ table ++ " at entry " ++ toString position

/-- Whether more input could not help. -/
def isFinal : DecodeError → Bool
  | .insufficientInput _ _ _ => false
  | _ => true

/-- The address of the instruction, if the error knows it. -/
def address? : DecodeError → Option Address
  | .insufficientInput address _ _ => some address
  | .unknownOpcode address _ => some address
  | .invalidOperand address _ => some address
  | .invalidEncoding address _ => some address
  | .malformedTable _ _ => none

end DecodeError

end MachineCode
