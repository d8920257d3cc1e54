import MachineCode.Proofs.Bits
import MachineCode.Proofs.Table.Known
import MachineCode.RiscV.InstructionSet

/-!
# The 32-bit encodings of RISC-V

The encodings as the instruction set manual gives them: six formats of words
(`rWord` to `jWord`), the encodings of instructions that share a format and
the kinds of their operands (`Encoding`), and the listing that gives each
opcode its encoding. The operand order is the one of the assembly language.

Nothing here refers to the decode table. The listing leaves out `fence`,
whose operand sets do not determine its word.
-/

namespace MachineCode.RiscV

/-! ## Formats -/

/-- Two sources and a destination. -/
def rWord (major destination funct3 first second funct7 : Nat) : Nat :=
  join
    [(7, major), (5, destination), (3, funct3), (5, first), (5, second),
      (7, funct7)]

/-- A destination, a source and a constant of twelve bits. -/
def iWord (major destination funct3 first constant : Nat) : Nat :=
  join
    [(7, major), (5, destination), (3, funct3), (5, first), (12, constant)]

/-- A shift, whose amount has `bits` of the bits of the constant. -/
def shiftWord
    (bits major destination funct3 first amount selector : Nat) :
    Nat :=
  join
    [(7, major), (5, destination), (3, funct3), (5, first), (bits, amount),
      (12 - bits, selector)]

/-- Two sources and a constant of twelve bits. -/
def sWord (major funct3 first second constant : Nat) : Nat :=
  join
    [(7, major), (5, bitField constant 0 5), (3, funct3), (5, first),
      (5, second), (7, bitField constant 5 7)]

/-- Two sources and an even offset of thirteen bits. -/
def bWord (major funct3 first second offset : Nat) : Nat :=
  join
    [(7, major), (1, bitField offset 11 1), (4, bitField offset 1 4),
      (3, funct3), (5, first), (5, second), (6, bitField offset 5 6),
      (1, bitField offset 12 1)]

/-- A destination and the upper twenty bits of a constant. -/
def uWord (major destination upper : Nat) : Nat :=
  join [(7, major), (5, destination), (20, upper)]

/-- A destination and an even offset of twenty-one bits. -/
def jWord (major destination offset : Nat) : Nat :=
  join
    [(7, major), (5, destination), (8, bitField offset 12 8),
      (1, bitField offset 11 1), (10, bitField offset 1 10),
      (1, bitField offset 20 1)]

/-! ## Operands -/

/-- The two sets of registers, each of 32. -/
inductive Bank where
  | integer
  | floating
deriving DecidableEq, Repr

namespace Bank

/-- The register of a number. -/
def register (xlen : Xlen) (number : Nat) : Bank → Register
  | .integer => ⟨xlen.architecture, .general, number, xlen.bits⟩
  | .floating => ⟨xlen.architecture, .floatingPoint, 64 + number, 64⟩

/-- The register of a number as an operand. -/
def operand (xlen : Xlen) (bank : Bank) (number : Nat) : Operand :=
  .register (bank.register xlen number)

/-- The number of a register in the bank. -/
def number? (xlen : Xlen) (bank : Bank) (register : Register) : Option Nat :=
  (List.range 32).find? fun number => bank.register xlen number = register

/-- The number of an operand that is a register of the bank. -/
def operandNumber? (xlen : Xlen) (bank : Bank) : Operand → Option Nat
  | .register register => bank.number? xlen register
  | _ => none

end Bank

/-- Memory of `size` bytes at a distance from an integer register. -/
def memoryAt (xlen : Xlen) (base : Nat) (displacement : Int) (size : Nat) :
    Operand :=
  .memory
    { base := some (Bank.integer.register xlen base), displacement, size }

/-- The base and the distance of such memory. -/
def memoryParts? (xlen : Xlen) (size : Nat) :
    Operand → Option (Nat × Int)
  | .memory reference =>
    match reference.base.bind (Bank.integer.number? xlen) with
    | some base =>
      if .memory reference =
          memoryAt xlen base reference.displacement size then
        some (base, reference.displacement)
      else
        none
    | none => none
  | _ => none

/-- The target at a distance from the instruction. -/
def targetAt (address : Address) (offset : Int) : Operand :=
  .relative offset (address.displace offset)

/-- The distance of a target. -/
def offset? : Operand → Option Int
  | .relative offset _ => some offset
  | _ => none

/-- The value of a signed constant of `bits` bits. -/
def signed? (bits : Nat) : Operand → Option Int
  | .immediate ⟨value, size, true⟩ => if size = bits then some value else none
  | _ => none

/-- The value of a constant of `bits` bits that has no sign. -/
def unsigned? (bits : Nat) : Operand → Option Nat
  | .immediate ⟨value, size, false⟩ =>
    if size = bits then some value.toNat else none
  | _ => none

/-- The number of a control register. -/
def control? : Operand → Option Nat
  | .systemRegister register => some register.encoding
  | _ => none

/-- The three bits of a rounding mode. -/
def roundingBits : RoundingMode → Nat
  | .nearestEven => 0b000
  | .towardZero => 0b001
  | .down => 0b010
  | .up => 0b011
  | .nearestMaxMagnitude => 0b100
  | .dynamic => 0b111

/-! ## Encodings -/

/--
The encoding of an instruction: its format, the fixed parts of its word, and
what its operands are.
-/
inductive Encoding where
  | upper (major : Nat)
  | jump (major : Nat)
  | branch (funct3 : Nat)
  | load (bank : Bank) (major funct3 size : Nat)
  | store (bank : Bank) (major funct3 size : Nat)
  /-- A destination, a source and a signed constant. -/
  | constant (major funct3 : Nat)
  /-- A shift by an amount of `bits` bits. -/
  | shift (bits major funct3 selector : Nat)
  | registers (major funct3 funct7 : Nat)
  | control (funct3 : Nat)
  /-- An access to a control register with a constant of five bits. -/
  | controlConstant (funct3 : Nat)
  /-- Floating-point arithmetic with a rounding mode. -/
  | float (funct7 : Nat)
  /-- A move of bits from one bank to the other. -/
  | move (destination source : Bank) (funct7 : Nat)
  /-- A word without operands. -/
  | bare (word : Nat)
deriving DecidableEq, Repr

namespace Encoding

/-- The major opcode of conditional branches. -/
def branchMajor : Nat :=
  0x63

/-- The major opcode of accesses to control registers. -/
def systemMajor : Nat :=
  0x73

/-- The major opcode of floating-point arithmetic. -/
def floatMajor : Nat :=
  0x53

/-- The word of an instruction with the given operands and rounding mode. -/
@[simp]
def encode? (xlen : Xlen) :
    Encoding → List Operand → Option RoundingMode → Option Nat
  | .upper major, [destination, value], none => do
    let destination ← Bank.integer.operandNumber? xlen destination
    return uWord major destination (← unsigned? 20 value)
  | .jump major, [link, target], none => do
    let link ← Bank.integer.operandNumber? xlen link
    return jWord major link (twosComplement (← offset? target) 21)
  | .branch funct3, [first, second, target], none => do
    let first ← Bank.integer.operandNumber? xlen first
    let second ← Bank.integer.operandNumber? xlen second
    return bWord branchMajor funct3 first second
      (twosComplement (← offset? target) 13)
  | .load bank major funct3 size, [destination, memory], none => do
    let destination ← bank.operandNumber? xlen destination
    let (base, displacement) ← memoryParts? xlen size memory
    return iWord major destination funct3 base
      (twosComplement displacement 12)
  | .store bank major funct3 size, [source, memory], none => do
    let source ← bank.operandNumber? xlen source
    let (base, displacement) ← memoryParts? xlen size memory
    return sWord major funct3 base source (twosComplement displacement 12)
  | .constant major funct3, [destination, source, value], none => do
    let destination ← Bank.integer.operandNumber? xlen destination
    let source ← Bank.integer.operandNumber? xlen source
    return iWord major destination funct3 source
      (twosComplement (← signed? 12 value) 12)
  | .shift bits major funct3 selector, [destination, source, amount], none =>
    do
    let destination ← Bank.integer.operandNumber? xlen destination
    let source ← Bank.integer.operandNumber? xlen source
    return shiftWord bits major destination funct3 source
      (← unsigned? bits amount) selector
  | .registers major funct3 funct7, [destination, first, second], none => do
    let destination ← Bank.integer.operandNumber? xlen destination
    let first ← Bank.integer.operandNumber? xlen first
    let second ← Bank.integer.operandNumber? xlen second
    return rWord major destination funct3 first second funct7
  | .control funct3, [destination, special, source], none => do
    let destination ← Bank.integer.operandNumber? xlen destination
    let source ← Bank.integer.operandNumber? xlen source
    return iWord systemMajor destination funct3 source (← control? special)
  | .controlConstant funct3, [destination, special, value], none => do
    let destination ← Bank.integer.operandNumber? xlen destination
    let value ← unsigned? 5 value
    return iWord systemMajor destination funct3 value (← control? special)
  | .float funct7, [destination, first, second], some mode => do
    let destination ← Bank.floating.operandNumber? xlen destination
    let first ← Bank.floating.operandNumber? xlen first
    let second ← Bank.floating.operandNumber? xlen second
    return rWord floatMajor destination (roundingBits mode) first second
      funct7
  | .move destinations sources funct7, [destination, source], none => do
    let destination ← destinations.operandNumber? xlen destination
    let source ← sources.operandNumber? xlen source
    return rWord floatMajor destination 0 source 0 funct7
  | .bare word, [], none => some word
  | _, _, _ => none

/--
The operands in the range of an encoding, for an instruction at an address,
with the rounding mode if there is one.
-/
inductive Fits (xlen : Xlen) (address : Address) :
    Encoding → List Operand → Option RoundingMode → Prop where
  | upper {major destination upper : Nat}
      (destinationSmall : destination < 32)
      (upperSmall : upper < 2 ^ 20) :
      Fits xlen address (.upper major)
        [Bank.integer.operand xlen destination, .unsigned upper 20] none
  | jump {major link : Nat} {offset : Int}
      (linkSmall : link < 32)
      (even : 2 ∣ offset)
      (low : -2 ^ 20 ≤ offset)
      (high : offset < 2 ^ 20) :
      Fits xlen address (.jump major)
        [Bank.integer.operand xlen link, targetAt address offset] none
  | branch {funct3 first second : Nat} {offset : Int}
      (firstSmall : first < 32)
      (secondSmall : second < 32)
      (even : 2 ∣ offset)
      (low : -2 ^ 12 ≤ offset)
      (high : offset < 2 ^ 12) :
      Fits xlen address (.branch funct3)
        [Bank.integer.operand xlen first, Bank.integer.operand xlen second,
          targetAt address offset]
        none
  | load {bank : Bank} {major funct3 size destination base : Nat}
      {displacement : Int}
      (destinationSmall : destination < 32)
      (baseSmall : base < 32)
      (low : -2 ^ 11 ≤ displacement)
      (high : displacement < 2 ^ 11) :
      Fits xlen address (.load bank major funct3 size)
        [bank.operand xlen destination, memoryAt xlen base displacement size]
        none
  | store {bank : Bank} {major funct3 size source base : Nat}
      {displacement : Int}
      (sourceSmall : source < 32)
      (baseSmall : base < 32)
      (low : -2 ^ 11 ≤ displacement)
      (high : displacement < 2 ^ 11) :
      Fits xlen address (.store bank major funct3 size)
        [bank.operand xlen source, memoryAt xlen base displacement size] none
  | constant {major funct3 destination source : Nat} {constant : Int}
      (destinationSmall : destination < 32)
      (sourceSmall : source < 32)
      (low : -2 ^ 11 ≤ constant)
      (high : constant < 2 ^ 11) :
      Fits xlen address (.constant major funct3)
        [Bank.integer.operand xlen destination,
          Bank.integer.operand xlen source, .signed constant 12]
        none
  | shift {bits major funct3 selector destination source amount : Nat}
      (destinationSmall : destination < 32)
      (sourceSmall : source < 32)
      (amountSmall : amount < 2 ^ bits) :
      Fits xlen address (.shift bits major funct3 selector)
        [Bank.integer.operand xlen destination,
          Bank.integer.operand xlen source, .unsigned amount bits]
        none
  | registers {major funct3 funct7 destination first second : Nat}
      (destinationSmall : destination < 32)
      (firstSmall : first < 32)
      (secondSmall : second < 32) :
      Fits xlen address (.registers major funct3 funct7)
        [Bank.integer.operand xlen destination,
          Bank.integer.operand xlen first, Bank.integer.operand xlen second]
        none
  | control {funct3 destination source number : Nat}
      (destinationSmall : destination < 32)
      (sourceSmall : source < 32)
      (numberSmall : number < 2 ^ 12) :
      Fits xlen address (.control funct3)
        [Bank.integer.operand xlen destination,
          .systemRegister (controlRegister number),
          Bank.integer.operand xlen source]
        none
  | controlConstant {funct3 destination constant number : Nat}
      (destinationSmall : destination < 32)
      (constantSmall : constant < 2 ^ 5)
      (numberSmall : number < 2 ^ 12) :
      Fits xlen address (.controlConstant funct3)
        [Bank.integer.operand xlen destination,
          .systemRegister (controlRegister number), .unsigned constant 5]
        none
  | float {funct7 destination first second : Nat} (mode : RoundingMode)
      (destinationSmall : destination < 32)
      (firstSmall : first < 32)
      (secondSmall : second < 32) :
      Fits xlen address (.float funct7)
        [Bank.floating.operand xlen destination,
          Bank.floating.operand xlen first,
          Bank.floating.operand xlen second]
        (some mode)
  | move {destinations sources : Bank} {funct7 destination source : Nat}
      (destinationSmall : destination < 32)
      (sourceSmall : source < 32) :
      Fits xlen address (.move destinations sources funct7)
        [destinations.operand xlen destination, sources.operand xlen source]
        none
  | bare {word : Nat} :
      Fits xlen address (.bare word) [] none

end Encoding

/-! ## The listing -/

/-- The major opcode of arithmetic with a constant. -/
def constantMajor : Nat :=
  0x13

/-- The major opcode of word arithmetic with a constant. -/
def wordConstantMajor : Nat :=
  0x1b

/-- The major opcode of arithmetic on registers. -/
def registerMajor : Nat :=
  0x33

/-- The major opcode of word arithmetic on registers. -/
def wordRegisterMajor : Nat :=
  0x3b

/-- What stands above the amount of an arithmetic shift by a constant. -/
def arithmeticSelector : Xlen → Nat
  | .rv32 => 0b0100000
  | .rv64 => 0b010000

namespace Opcode

theorem id_injective
    {left right : Opcode}
    (same : left.id = right.id) :
    left = right := by
  have found := ofId?_id left
  rw [same, ofId?_id] at found
  exact (Option.some.inj found).symm

/-- The encoding of a 32-bit instruction. -/
def encoding? (xlen : Xlen) : Opcode → Option Encoding
  | .lui => some (.upper 0x37)
  | .auipc => some (.upper 0x17)
  | .jal => some (.jump 0x6f)
  | .jalr => some (.constant 0x67 0b000)
  | .beq => some (.branch 0b000)
  | .bne => some (.branch 0b001)
  | .blt => some (.branch 0b100)
  | .bge => some (.branch 0b101)
  | .bltu => some (.branch 0b110)
  | .bgeu => some (.branch 0b111)
  | .lb => some (.load .integer 0x03 0b000 1)
  | .lh => some (.load .integer 0x03 0b001 2)
  | .lw => some (.load .integer 0x03 0b010 4)
  | .ld => some (.load .integer 0x03 0b011 8)
  | .lbu => some (.load .integer 0x03 0b100 1)
  | .lhu => some (.load .integer 0x03 0b101 2)
  | .lwu => some (.load .integer 0x03 0b110 4)
  | .sb => some (.store .integer 0x23 0b000 1)
  | .sh => some (.store .integer 0x23 0b001 2)
  | .sw => some (.store .integer 0x23 0b010 4)
  | .sd => some (.store .integer 0x23 0b011 8)
  | .addi => some (.constant constantMajor 0b000)
  | .slti => some (.constant constantMajor 0b010)
  | .sltiu => some (.constant constantMajor 0b011)
  | .xori => some (.constant constantMajor 0b100)
  | .ori => some (.constant constantMajor 0b110)
  | .andi => some (.constant constantMajor 0b111)
  | .slli => some (.shift xlen.shiftBits constantMajor 0b001 0)
  | .srli => some (.shift xlen.shiftBits constantMajor 0b101 0)
  | .srai =>
    some
      (.shift xlen.shiftBits constantMajor 0b101 (arithmeticSelector xlen))
  | .addiw => some (.constant wordConstantMajor 0b000)
  | .slliw => some (.shift 5 wordConstantMajor 0b001 0)
  | .srliw => some (.shift 5 wordConstantMajor 0b101 0)
  | .sraiw => some (.shift 5 wordConstantMajor 0b101 0b0100000)
  | .add => some (.registers registerMajor 0b000 0)
  | .sub => some (.registers registerMajor 0b000 0b0100000)
  | .sll => some (.registers registerMajor 0b001 0)
  | .slt => some (.registers registerMajor 0b010 0)
  | .sltu => some (.registers registerMajor 0b011 0)
  | .xor => some (.registers registerMajor 0b100 0)
  | .srl => some (.registers registerMajor 0b101 0)
  | .sra => some (.registers registerMajor 0b101 0b0100000)
  | .or => some (.registers registerMajor 0b110 0)
  | .and => some (.registers registerMajor 0b111 0)
  | .addw => some (.registers wordRegisterMajor 0b000 0)
  | .subw => some (.registers wordRegisterMajor 0b000 0b0100000)
  | .sllw => some (.registers wordRegisterMajor 0b001 0)
  | .srlw => some (.registers wordRegisterMajor 0b101 0)
  | .sraw => some (.registers wordRegisterMajor 0b101 0b0100000)
  | .fenceI => some (.bare 0x0000100f)
  | .ecall => some (.bare 0x00000073)
  | .ebreak => some (.bare 0x00100073)
  | .sret => some (.bare 0x10200073)
  | .mret => some (.bare 0x30200073)
  | .wfi => some (.bare 0x10500073)
  | .csrrw => some (.control 0b001)
  | .csrrs => some (.control 0b010)
  | .csrrc => some (.control 0b011)
  | .csrrwi => some (.controlConstant 0b101)
  | .csrrsi => some (.controlConstant 0b110)
  | .csrrci => some (.controlConstant 0b111)
  | .mul => some (.registers registerMajor 0b000 1)
  | .mulh => some (.registers registerMajor 0b001 1)
  | .mulhsu => some (.registers registerMajor 0b010 1)
  | .mulhu => some (.registers registerMajor 0b011 1)
  | .div => some (.registers registerMajor 0b100 1)
  | .divu => some (.registers registerMajor 0b101 1)
  | .rem => some (.registers registerMajor 0b110 1)
  | .remu => some (.registers registerMajor 0b111 1)
  | .mulw => some (.registers wordRegisterMajor 0b000 1)
  | .divw => some (.registers wordRegisterMajor 0b100 1)
  | .divuw => some (.registers wordRegisterMajor 0b101 1)
  | .remw => some (.registers wordRegisterMajor 0b110 1)
  | .remuw => some (.registers wordRegisterMajor 0b111 1)
  | .flw => some (.load .floating 0x07 0b010 4)
  | .fld => some (.load .floating 0x07 0b011 8)
  | .fsw => some (.store .floating 0x27 0b010 4)
  | .fsd => some (.store .floating 0x27 0b011 8)
  | .faddS => some (.float 0b0000000)
  | .fsubS => some (.float 0b0000100)
  | .fmulS => some (.float 0b0001000)
  | .fdivS => some (.float 0b0001100)
  | .faddD => some (.float 0b0000001)
  | .fsubD => some (.float 0b0000101)
  | .fmulD => some (.float 0b0001001)
  | .fdivD => some (.float 0b0001101)
  | .fmvXW => some (.move .integer .floating 0b1110000)
  | .fmvWX => some (.move .floating .integer 0b1111000)
  | .fmvXD => some (.move .integer .floating 0b1110001)
  | .fmvDX => some (.move .floating .integer 0b1111001)
  | _ => none

/-- What an instruction requires of the processor. -/
def requirements : Opcode → List Requirement
  | .ld | .lwu | .sd | .addiw | .slliw | .srliw | .sraiw | .addw | .subw
  | .sllw | .srlw | .sraw => [.rv64]
  | .mul | .mulh | .mulhsu | .mulhu | .div | .divu | .rem | .remu =>
    [.multiply]
  | .mulw | .divw | .divuw | .remw | .remuw => [.rv64, .multiply]
  | .flw | .fsw | .faddS | .fsubS | .fmulS | .fdivS | .fmvXW | .fmvWX =>
    [.float]
  | .fld | .fsd | .faddD | .fsubD | .fmulD | .fdivD => [.double]
  | .fmvXD | .fmvDX => [.double, .rv64]
  | .csrrw | .csrrs | .csrrc | .csrrwi | .csrrsi | .csrrci => [.control]
  | _ => []

/-- Whether a processor has the instruction. -/
def admitted (xlen : Xlen) (features : Features) (opcode : Opcode) : Bool :=
  opcode.requirements.all (Requirement.met xlen features)

/-- The word of an instruction with the given operands and rounding mode. -/
def encode?
    (xlen : Xlen)
    (opcode : Opcode)
    (operands : List Operand)
    (mode : Option RoundingMode) :
    Option Nat := do
  (← opcode.encoding? xlen).encode? xlen operands mode

end Opcode

end MachineCode.RiscV
