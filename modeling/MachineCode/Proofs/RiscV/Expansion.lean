import MachineCode.Proofs.RiscV.Manual

/-!
# The expansions of compressed instructions

A parcel of 16 bits stands for an instruction of 32 bits. The manual lists the
compressed instructions with the fixed bits of their parcels, and gives each
the instruction that it expands to. The listing here (`expansions`) has a row
for each of them: the tests on the parcel, the opcode of the expansion, and
how the parcel gives the operands of the expansion.

The bits of an immediate are written as the manual writes them: `imm[8|4:3]`
above bit 12 says where in the immediate bit 12 and the bits below it belong.

A compressed instruction leaves out some operands of its expansion. The row
says for each operand whether it is kept, or why it is left out (`Place`).
-/

namespace MachineCode.RiscV

/-! ## Immediates -/

/-- The immediates of compressed instructions, by the order of their bits. -/
inductive Scattering where
  /-- The constant of six bits, also a shift amount. -/
  | constant
  | stackAddress
  | stackChange
  /-- The offset of an access to a word. -/
  | word
  /-- The offset of an access to a doubleword. -/
  | double
  | jump
  | branch
  | stackLoadWord
  | stackLoadDouble
  | stackStoreWord
  | stackStoreDouble
deriving DecidableEq, Repr

namespace Scattering

/--
The places of the bits in the immediate, for the bits of the parcel from a
given one downwards.
-/
def labels : Scattering → List (Nat × List Nat)
  | .constant => [(12, [5]), (6, [4, 3, 2, 1, 0])]
  | .stackAddress => [(12, [5, 4, 9, 8, 7, 6, 2, 3])]
  | .stackChange => [(12, [9]), (6, [4, 6, 8, 7, 5])]
  | .word => [(12, [5, 4, 3]), (6, [2, 6])]
  | .double => [(12, [5, 4, 3]), (6, [7, 6])]
  | .jump => [(12, [11, 4, 9, 8, 10, 6, 7, 3, 2, 1, 5])]
  | .branch => [(12, [8, 4, 3]), (6, [7, 6, 2, 1, 5])]
  | .stackLoadWord => [(12, [5]), (6, [4, 3, 2, 7, 6])]
  | .stackLoadDouble => [(12, [5]), (6, [4, 3, 8, 7, 6])]
  | .stackStoreWord => [(12, [5, 4, 3, 2, 7, 6])]
  | .stackStoreDouble => [(12, [5, 4, 3, 8, 7, 6])]

/-- The number of bits of an immediate. -/
def bits : Scattering → Nat
  | .constant => 6
  | .stackAddress | .stackChange => 10
  | .word => 7
  | .double | .stackLoadWord | .stackStoreWord => 8
  | .jump => 12
  | .branch | .stackLoadDouble | .stackStoreDouble => 9

/-- The part of an immediate that the bits from `top` downwards make up. -/
def labelled (parcel : Nat) : (top : Nat) → List Nat → Nat
  | _, [] => 0
  | top, label :: labels =>
    2 ^ label * bitField parcel top 1 + labelled parcel (top - 1) labels

/-- The immediate of a parcel. -/
def value (parcel : Nat) (scattering : Scattering) : Nat :=
  (scattering.labels.map fun (top, labels) => labelled parcel top labels).sum

end Scattering

/-! ## Operands -/

/-- How a compressed instruction names a register. -/
inductive Named where
  /-- An integer register that the instruction implies. -/
  | fixed (number : Nat)
  /-- By five bits. -/
  | full (bank : Bank) (start : Nat)
  /-- By three bits, from the eighth register on. -/
  | short (bank : Bank) (start : Nat)
deriving DecidableEq, Repr

namespace Named

def bank : Named → Bank
  | .fixed _ => .integer
  | .full bank _ | .short bank _ => bank

/-- The number of the register. -/
def number (parcel : Nat) : Named → Nat
  | .fixed number => number
  | .full _ start => bitField parcel start 5
  | .short _ start => 8 + bitField parcel start 3

def register (xlen : Xlen) (parcel : Nat) (named : Named) : Register :=
  named.bank.register xlen (named.number parcel)

end Named

/-- An operand of the expansion, as the parcel gives it. -/
inductive Part where
  | register (named : Named)
  /-- A constant with a sign. -/
  | constant (scattering : Scattering)
  /-- A constant without a sign. -/
  | distance (scattering : Scattering)
  | noConstant
  /-- A shift amount. -/
  | amount
  /-- The upper bits of a constant, of which six have a sign. -/
  | upper
  | target (scattering : Scattering)
  | memory (base : Named) (scattering : Scattering) (size : Nat)
deriving DecidableEq, Repr

/-- The operand of the expansion of a parcel at an address. -/
def Part.operand
    (xlen : Xlen)
    (address : Address)
    (parcel : Nat) :
    Part → Operand
  | .register named => .register (named.register xlen parcel)
  | .constant scattering =>
    .signed (signExtend (scattering.value parcel) scattering.bits) 12
  | .distance scattering => .signed (scattering.value parcel) 12
  | .noConstant => .signed 0 12
  | .amount => .unsigned (Scattering.constant.value parcel) xlen.shiftBits
  | .upper =>
    let constant := signExtend (Scattering.constant.value parcel) 6
    .unsigned (twosComplement constant 20) 20
  | .target scattering =>
    targetAt address
      (signExtend (scattering.value parcel) scattering.bits)
  | .memory base scattering size =>
    memoryAt xlen (base.number parcel) (scattering.value parcel) size

/-- Whether an operand of the expansion is written, or why not. -/
inductive Place where
  | kept
  /-- It is the zero register. -/
  | zero
  /-- It is the link register. -/
  | link
  /-- It repeats the destination. -/
  | repeated
  /-- It is a constant that is zero. -/
  | noConstant
deriving DecidableEq, Repr

/-! ## The listing -/

/-- A compressed instruction with its expansion. -/
structure Expansion where
  /-- The compressed instruction. -/
  short : Opcode
  /-- The fixed bits of its parcels. -/
  tests : List Guard
  /-- The instruction of the expansion. -/
  long : Opcode
  parts : List (Place × Part)

namespace Expansion

/-- Whether a parcel has the fixed bits. -/
def applies (parcel : Nat) (expansion : Expansion) : Bool :=
  expansion.tests.all (Guard.holds (fun _ => false) parcel)

/-- The operands of the expansion. -/
def operands
    (xlen : Xlen)
    (address : Address)
    (parcel : Nat)
    (expansion : Expansion) :
    List Operand :=
  expansion.parts.map fun part => part.2.operand xlen address parcel

end Expansion

/-- The tests on the quadrant and on the three bits at the top. -/
def inQuadrant (quadrant funct3 : Nat) (others : List Guard) : List Guard :=
  .field 0 2 quadrant :: .field 13 3 funct3 :: others

/-- A load or store, with the memory that it accesses. -/
def accessing
    (short : Opcode)
    (quadrant funct3 : Nat)
    (long : Opcode)
    (data base : Named)
    (scattering : Scattering)
    (size : Nat) :
    Expansion :=
  ⟨short, inQuadrant quadrant funct3 [], long,
    [(.kept, .register data), (.kept, .memory base scattering size)]⟩

/-- An instruction on one register and something else. -/
def updating
    (short : Opcode)
    (tests : List Guard)
    (long : Opcode)
    (destination : Named)
    (source : Part) :
    Expansion :=
  ⟨short, tests, long,
    [(.kept, .register destination), (.repeated, .register destination),
      (.kept, source)]⟩

/-- A conditional branch that compares with zero. -/
def comparingZero (short : Opcode) (funct3 : Nat) (long : Opcode) :
    Expansion :=
  ⟨short, inQuadrant 1 funct3 [], long,
    [(.kept, .register (.short .integer 7)),
      (.zero, .register (.fixed zeroRegister)), (.kept, .target .branch)]⟩

/-- A jump that leaves the return address in the link register, or not. -/
def jumping (short : Opcode) (funct3 link : Nat) (place : Place) :
    Expansion :=
  ⟨short, inQuadrant 1 funct3 [], .jal,
    [(place, .register (.fixed link)), (.kept, .target .jump)]⟩

/-- A jump to a register. -/
def jumpingRegister
    (short : Opcode)
    (others : List Guard)
    (link : Nat)
    (place : Place) :
    Expansion :=
  ⟨short, inQuadrant 2 0b100 others, .jalr,
    [(place, .register (.fixed link)),
      (.kept, .register (.full .integer 7)), (.noConstant, .noConstant)]⟩

/-- The stack pointer. -/
def stack : Named :=
  .fixed stackPointer

/-- The compressed instructions that every width of registers has. -/
def commonExpansions : List Expansion :=
  [⟨.cAddi4spn, inQuadrant 0 0b000 [.otherField 5 8 0], .addi,
      [(.kept, .register (.short .integer 2)), (.kept, .register stack),
        (.kept, .distance .stackAddress)]⟩,
    accessing .cFld 0 0b001 .fld (.short .floating 2) (.short .integer 7)
      .double 8,
    accessing .cLw 0 0b010 .lw (.short .integer 2) (.short .integer 7)
      .word 4,
    accessing .cFsd 0 0b101 .fsd (.short .floating 2) (.short .integer 7)
      .double 8,
    accessing .cSw 0 0b110 .sw (.short .integer 2) (.short .integer 7)
      .word 4,
    ⟨.cNop, inQuadrant 1 0b000 [.field 7 5 0, .field 12 1 0, .field 2 5 0],
      .addi,
      [(.zero, .register (.fixed zeroRegister)),
        (.zero, .register (.fixed zeroRegister)),
        (.noConstant, .noConstant)]⟩,
    updating .cAddi (inQuadrant 1 0b000 [.otherField 7 5 0]) .addi
      (.full .integer 7) (.constant .constant),
    ⟨.cLi, inQuadrant 1 0b010 [], .addi,
      [(.kept, .register (.full .integer 7)),
        (.zero, .register (.fixed zeroRegister)),
        (.kept, .constant .constant)]⟩,
    -- The tests make the destination of this one the stack pointer.
    updating .cAddi16sp (inQuadrant 1 0b011 [.field 7 5 stackPointer]) .addi
      (.full .integer 7) (.constant .stackChange),
    ⟨.cLui, inQuadrant 1 0b011 [.otherField 7 5 stackPointer], .lui,
      [(.kept, .register (.full .integer 7)), (.kept, .upper)]⟩,
    updating .cSrli (inQuadrant 1 0b100 [.field 10 2 0b00]) .srli
      (.short .integer 7) .amount,
    updating .cSrai (inQuadrant 1 0b100 [.field 10 2 0b01]) .srai
      (.short .integer 7) .amount,
    updating .cAndi (inQuadrant 1 0b100 [.field 10 2 0b10]) .andi
      (.short .integer 7) (.constant .constant),
    updating .cSub
      (inQuadrant 1 0b100 [.field 10 2 0b11, .field 12 1 0, .field 5 2 0b00])
      .sub (.short .integer 7) (.register (.short .integer 2)),
    updating .cXor
      (inQuadrant 1 0b100 [.field 10 2 0b11, .field 12 1 0, .field 5 2 0b01])
      .xor (.short .integer 7) (.register (.short .integer 2)),
    updating .cOr
      (inQuadrant 1 0b100 [.field 10 2 0b11, .field 12 1 0, .field 5 2 0b10])
      .or (.short .integer 7) (.register (.short .integer 2)),
    updating .cAnd
      (inQuadrant 1 0b100 [.field 10 2 0b11, .field 12 1 0, .field 5 2 0b11])
      .and (.short .integer 7) (.register (.short .integer 2)),
    jumping .cJ 0b101 zeroRegister .zero,
    comparingZero .cBeqz 0b110 .beq,
    comparingZero .cBnez 0b111 .bne,
    updating .cSlli (inQuadrant 2 0b000 []) .slli (.full .integer 7) .amount,
    accessing .cFldsp 2 0b001 .fld (.full .floating 7) stack
      .stackLoadDouble 8,
    accessing .cLwsp 2 0b010 .lw (.full .integer 7) stack .stackLoadWord 4,
    jumpingRegister .cJr [.field 12 1 0, .field 2 5 0] zeroRegister .zero,
    ⟨.cMv, inQuadrant 2 0b100 [.field 12 1 0, .otherField 2 5 0], .add,
      [(.kept, .register (.full .integer 7)),
        (.zero, .register (.fixed zeroRegister)),
        (.kept, .register (.full .integer 2))]⟩,
    ⟨.cEbreak,
      inQuadrant 2 0b100 [.field 12 1 1, .field 2 5 0, .field 7 5 0],
      .ebreak, []⟩,
    jumpingRegister .cJalr [.field 12 1 1, .field 2 5 0, .otherField 7 5 0]
      linkRegister .link,
    updating .cAdd (inQuadrant 2 0b100 [.field 12 1 1, .otherField 2 5 0])
      .add (.full .integer 7) (.register (.full .integer 2)),
    accessing .cFsdsp 2 0b101 .fsd (.full .floating 2) stack
      .stackStoreDouble 8,
    accessing .cSwsp 2 0b110 .sw (.full .integer 2) stack .stackStoreWord 4]

/-- The compressed instructions of one width of registers. -/
def specialExpansions : Xlen → List Expansion
  | .rv32 =>
    [accessing .cFlw 0 0b011 .flw (.short .floating 2) (.short .integer 7)
        .word 4,
      accessing .cFsw 0 0b111 .fsw (.short .floating 2) (.short .integer 7)
        .word 4,
      jumping .cJal 0b001 linkRegister .link,
      accessing .cFlwsp 2 0b011 .flw (.full .floating 7) stack
        .stackLoadWord 4,
      accessing .cFswsp 2 0b111 .fsw (.full .floating 2) stack
        .stackStoreWord 4]
  | .rv64 =>
    [accessing .cLd 0 0b011 .ld (.short .integer 2) (.short .integer 7)
        .double 8,
      accessing .cSd 0 0b111 .sd (.short .integer 2) (.short .integer 7)
        .double 8,
      updating .cAddiw (inQuadrant 1 0b001 []) .addiw (.full .integer 7)
        (.constant .constant),
      updating .cSubw
        (inQuadrant 1 0b100
          [.field 10 2 0b11, .field 12 1 1, .field 5 2 0b00])
        .subw (.short .integer 7) (.register (.short .integer 2)),
      updating .cAddw
        (inQuadrant 1 0b100
          [.field 10 2 0b11, .field 12 1 1, .field 5 2 0b01])
        .addw (.short .integer 7) (.register (.short .integer 2)),
      accessing .cLdsp 2 0b011 .ld (.full .integer 7) stack
        .stackLoadDouble 8,
      accessing .cSdsp 2 0b111 .sd (.full .integer 2) stack
        .stackStoreDouble 8]

/-- The listing of compressed instructions. -/
def expansions (xlen : Xlen) : List Expansion :=
  commonExpansions ++ specialExpansions xlen

/-- The compressed instruction that a parcel stands for. -/
def expansion? (xlen : Xlen) (parcel : Nat) : Option Expansion :=
  (expansions xlen).find? (Expansion.applies parcel)

/-! ## What is left out -/

/-- Whether two operands mean the same; the field of a constant may differ. -/
def SameMeaning : Operand → Operand → Prop
  | .immediate left, .immediate right => left.value = right.value
  | left, right => left = right

/--
Whether the operands of an expansion, in their places, are those of a
compressed instruction with the others left out for the reason given. An
operand is repeated if it is the same as `destination`.
-/
def Shortens (xlen : Xlen) (destination : Option Operand) :
    List Place → List Operand → List Operand → Prop
  | [], [], [] => True
  | .kept :: places, long :: longs, short :: shorts =>
    SameMeaning long short ∧ Shortens xlen destination places longs shorts
  | .zero :: places, long :: longs, shorts =>
    long = Bank.integer.operand xlen zeroRegister ∧
      Shortens xlen destination places longs shorts
  | .link :: places, long :: longs, shorts =>
    long = Bank.integer.operand xlen linkRegister ∧
      Shortens xlen destination places longs shorts
  | .repeated :: places, long :: longs, shorts =>
    some long = destination ∧ Shortens xlen destination places longs shorts
  | .noConstant :: places, long :: longs, shorts =>
    long = .signed 0 12 ∧ Shortens xlen destination places longs shorts
  | _, _, _ => False

end MachineCode.RiscV
