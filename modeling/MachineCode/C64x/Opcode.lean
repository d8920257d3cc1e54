import MachineCode.Opcode

/-!
# C64x opcodes

One opcode serves every functional unit that implements it, so the group of
the unit is no part of the description. Sources come before the destination.
The last five opcodes are preferred spellings of others.
-/

namespace MachineCode.C64x

/-- The opcodes, numbered in order from zero. -/
inductive Opcode where
  | add
  | sub
  | and
  | or
  | xor
  | cmpeq
  | cmpgt
  | cmplt
  | abs
  | shl
  | shr
  | shru
  | addab
  | addah
  | addaw
  | subab
  | subah
  | subaw
  | mpy
  | mpyh
  | mpyhl
  | mpylh
  | mpyu
  | smpy
  | mvk
  | mvkh
  | addk
  | branch
  | branchRegister
  | branchReturn
  | mvc
  | nop
  | idle
  | ldb
  | ldbu
  | ldh
  | ldhu
  | ldw
  | ldnw
  | lddw
  | ldndw
  | stb
  | sth
  | stw
  | stnw
  | stdw
  | stndw
  | mv
  | neg
  | not
  | zero
  | nopOne
deriving DecidableEq, Repr

namespace Opcode

/-- The number of opcodes. -/
def count : Nat :=
  52

/-- The number of an opcode. -/
def id (opcode : Opcode) : Nat :=
  opcode.ctorIdx

/-- The opcode of a number. -/
def ofId? (number : Nat) : Option Opcode :=
  if number < count then some (ofNat number) else none

@[simp]
theorem ofId?_id (opcode : Opcode) : ofId? opcode.id = some opcode := by
  cases opcode <;> rfl

/-- Two sources and a destination. -/
def binary (mnemonic : String) (operation : Operation) : OpcodeInfo :=
  { mnemonic, operation, access := [.read, .read, .write] }

/-- A source and a destination. -/
def unary (mnemonic : String) (operation : Operation) : OpcodeInfo :=
  { mnemonic, operation, access := [.read, .write] }

/-- A source and a destination that is also read. -/
def update (mnemonic : String) (operation : Operation) : OpcodeInfo :=
  { mnemonic, operation, access := [.read, .readWrite] }

/-- The description of an opcode. -/
def info : Opcode → OpcodeInfo
  | .add => binary "add" .add
  | .sub => binary "sub" .sub
  | .and => binary "and" .and
  | .or => binary "or" .or
  | .xor => binary "xor" .xor
  | .cmpeq => binary "cmpeq" .compare
  | .cmpgt => binary "cmpgt" .compare
  | .cmplt => binary "cmplt" .compare
  | .abs => unary "abs" (.other 0)
  | .shl => binary "shl" .shiftLeft
  | .shr => binary "shr" .shiftRightArithmetic
  | .shru => binary "shru" .shiftRight
  | .addab => binary "addab" .add
  | .addah => binary "addah" .add
  | .addaw => binary "addaw" .add
  | .subab => binary "subab" .sub
  | .subah => binary "subah" .sub
  | .subaw => binary "subaw" .sub
  | .mpy => binary "mpy" .mul
  | .mpyh => binary "mpyh" .mul
  | .mpyhl => binary "mpyhl" .mul
  | .mpylh => binary "mpylh" .mul
  | .mpyu => binary "mpyu" .mul
  | .smpy => binary "smpy" .mul
  | .mvk => unary "mvk" .move
  | .mvkh => update "mvkh" .move
  | .addk => update "addk" .add
  | .branch =>
    { mnemonic := "b", operation := .jump, access := [.read]
      groups := .ofList [.jump, .branchRelative] }
  | .branchRegister =>
    { mnemonic := "b", operation := .jump, access := [.read]
      groups := .ofList [.jump] }
  | .branchReturn =>
    { mnemonic := "b", operation := .ret, access := [.read]
      groups := .ofList [.jump, .ret] }
  | .mvc => unary "mvc" .systemAccess
  | .nop => { mnemonic := "nop", operation := .nop, access := [.read] }
  | .idle => { mnemonic := "idle", operation := .halt }
  | .ldb => unary "ldb" .load
  | .ldbu => unary "ldbu" .load
  | .ldh => unary "ldh" .load
  | .ldhu => unary "ldhu" .load
  | .ldw => unary "ldw" .load
  | .ldnw => unary "ldnw" .load
  | .lddw => unary "lddw" .load
  | .ldndw => unary "ldndw" .load
  | .stb => unary "stb" .store
  | .sth => unary "sth" .store
  | .stw => unary "stw" .store
  | .stnw => unary "stnw" .store
  | .stdw => unary "stdw" .store
  | .stndw => unary "stndw" .store
  | .mv => unary "mv" .move
  | .neg => unary "neg" .neg
  | .not => unary "not" .not
  | .zero => { mnemonic := "zero", operation := .move, access := [.write] }
  | .nopOne => { mnemonic := "nop", operation := .nop }

end Opcode

end MachineCode.C64x
