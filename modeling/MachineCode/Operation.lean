/-!
# Operations

What an instruction does, coarsely enough to hold across architectures. The
operation decides how control leaves an instruction (`ControlFlow`).
-/

namespace MachineCode

/-- The kind of work an instruction does. -/
inductive Operation where
  | move
  | load
  | store
  | loadAddress
  | add
  | sub
  | mul
  | div
  | neg
  | and
  | or
  | xor
  | not
  | shiftLeft
  | shiftRight
  | shiftRightArithmetic
  | rotateRight
  | bitField
  | compare
  | test
  | select
  | jump
  | conditionalJump
  | call
  | ret
  | syscall
  | interrupt
  | systemAccess
  | fence
  | nop
  | halt
  /-- An operation outside the list, told apart by a number only. -/
  | other (number : Nat)
deriving DecidableEq, Repr

namespace Operation

/-- The operations that have a name of their own. -/
def named : List Operation :=
  [.move, .load, .store, .loadAddress, .add, .sub, .mul, .div, .neg, .and,
    .or, .xor, .not, .shiftLeft, .shiftRight, .shiftRightArithmetic,
    .rotateRight, .bitField, .compare, .test, .select, .jump,
    .conditionalJump, .call, .ret, .syscall, .interrupt, .systemAccess,
    .fence, .nop, .halt]

/-- The short name. -/
def name : Operation → String
  | .move => "move"
  | .load => "load"
  | .store => "store"
  | .loadAddress => "lea"
  | .add => "add"
  | .sub => "sub"
  | .mul => "mul"
  | .div => "div"
  | .neg => "neg"
  | .and => "and"
  | .or => "or"
  | .xor => "xor"
  | .not => "not"
  | .shiftLeft => "shl"
  | .shiftRight => "shr"
  | .shiftRightArithmetic => "sar"
  | .rotateRight => "ror"
  | .bitField => "bitfield"
  | .compare => "compare"
  | .test => "test"
  | .select => "select"
  | .jump => "jump"
  | .conditionalJump => "cond_jump"
  | .call => "call"
  | .ret => "return"
  | .syscall => "syscall"
  | .interrupt => "interrupt"
  | .systemAccess => "system"
  | .fence => "fence"
  | .nop => "nop"
  | .halt => "halt"
  | .other _ => "other"

/-- The named operation with a given short name. -/
def ofName? (text : String) : Option Operation :=
  named.find? fun operation => operation.name = text

end Operation

end MachineCode
