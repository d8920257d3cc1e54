import MachineCode.RiscV.Encoding

/-!
# RISC-V encodings of 32 bits

The decode program of the 32-bit words. Bits 2 to 6 are the major opcode; most
major opcodes are divided further by three bits at 12 and seven at 25.
-/

namespace MachineCode.RiscV.Wide

open Statement

/-- The loads into integer registers. -/
def loads : Statement :=
  switch 12 3
    [row 0b000 .lb .load,
      row 0b001 .lh .load,
      row 0b010 .lw .load,
      rowRequiring .rv64 0b011 .ld .load,
      row 0b100 .lbu .load,
      row 0b101 .lhu .load,
      rowRequiring .rv64 0b110 .lwu .load]

/-- The stores from integer registers. -/
def stores : Statement :=
  switch 12 3
    [row 0b000 .sb .store,
      row 0b001 .sh .store,
      row 0b010 .sw .store,
      rowRequiring .rv64 0b011 .sd .store]

/-- The conditional branches. -/
def branches : Statement :=
  switch 12 3 <|
    rows .branch
      [(0b000, .beq),
        (0b001, .bne),
        (0b100, .blt),
        (0b101, .bge),
        (0b110, .bltu),
        (0b111, .bgeu)]

/--
A shift by a constant. The amount has six bits with wide registers and five
with narrow ones, which leaves six or seven bits to tell the shift.
-/
def shift (selector : Nat) (opcode : Opcode) : List Statement :=
  [requiring .rv64 [check 26 6 (selector / 2) [leaf opcode .shift]],
    check 25 7 selector [leaf opcode .shift]]

/-- Arithmetic with a constant. -/
def constants : Statement :=
  switch 12 3 <|
    rows .constant
      [(0b000, .addi),
        (0b010, .slti),
        (0b011, .sltiu),
        (0b100, .xori),
        (0b110, .ori),
        (0b111, .andi)] ++
      [case 0b001 (shift 0 .slli),
        case 0b101 (shift 0 .srli ++ shift 0b0100000 .srai)]

/-- Arithmetic on words with a constant. -/
def wordConstants : Statement :=
  switch 12 3
    [row 0b000 .addiw .constant,
      case 0b001 [check 25 7 0 [leaf .slliw .shiftWord]],
      case 0b101
        [check 25 7 0 [leaf .srliw .shiftWord],
          check 25 7 0b0100000 [leaf .sraiw .shiftWord]]]

/-- Arithmetic on registers. -/
def registers : Statement :=
  switch 25 7
    [case 0b0000000
      [switch 12 3 <|
        rows .registers
          [(0b000, .add),
            (0b001, .sll),
            (0b010, .slt),
            (0b011, .sltu),
            (0b100, .xor),
            (0b101, .srl),
            (0b110, .or),
            (0b111, .and)]],
      case 0b0100000
        [switch 12 3 <| rows .registers [(0b000, .sub), (0b101, .sra)]],
      case 0b0000001
        [requiring .multiply
          [switch 12 3 <|
            rows .registers
              [(0b000, .mul),
                (0b001, .mulh),
                (0b010, .mulhsu),
                (0b011, .mulhu),
                (0b100, .div),
                (0b101, .divu),
                (0b110, .rem),
                (0b111, .remu)]]]]

/-- Arithmetic on the lower words of registers. -/
def wordRegisters : Statement :=
  switch 25 7
    [case 0b0000000
      [switch 12 3 <|
        rows .registers [(0b000, .addw), (0b001, .sllw), (0b101, .srlw)]],
      case 0b0100000
        [switch 12 3 <| rows .registers [(0b000, .subw), (0b101, .sraw)]],
      case 0b0000001
        [requiring .multiply
          [switch 12 3 <|
            rows .registers
              [(0b000, .mulw),
                (0b100, .divw),
                (0b101, .divuw),
                (0b110, .remw),
                (0b111, .remuw)]]]]

/-- The bits of a fence that name registers, which should be zero. -/
def fenceRegisters : Nat :=
  (0x1f <<< 15) ||| (0x1f <<< 7)

/-- The fences. -/
def fences : Statement :=
  switch 12 3
    [case 0b000 [leafZeros .fence .fence fenceRegisters],
      case 0b001
        [leafZeros .fenceI .bare (fenceRegisters ||| (0xfff <<< 20))]]

/-- The environment calls and the accesses to control registers. -/
def system : Statement :=
  switch 12 3
    [case 0b000
      [check 7 5 0
        [check 15 5 0
          [switch 20 12 <|
            rows .bare
              [(0x000, .ecall),
                (0x001, .ebreak),
                (0x102, .sret),
                (0x302, .mret),
                (0x105, .wfi)]]]],
      rowRequiring .control 0b001 .csrrw .control,
      rowRequiring .control 0b010 .csrrs .control,
      rowRequiring .control 0b011 .csrrc .control,
      rowRequiring .control 0b101 .csrrwi .controlConstant,
      rowRequiring .control 0b110 .csrrsi .controlConstant,
      rowRequiring .control 0b111 .csrrci .controlConstant]

/-- A move between the files; the second source and the mode are zero. -/
def move (value : Nat) (body : List Statement) : Case :=
  case value [check 20 5 0 [check 12 3 0 body]]

/-- Floating-point arithmetic. -/
def floats : Statement :=
  switch 25 7
    [rowRequiring .float 0b0000000 .faddS .floatArithmetic,
      rowRequiring .float 0b0000100 .fsubS .floatArithmetic,
      rowRequiring .float 0b0001000 .fmulS .floatArithmetic,
      rowRequiring .float 0b0001100 .fdivS .floatArithmetic,
      rowRequiring .double 0b0000001 .faddD .floatArithmetic,
      rowRequiring .double 0b0000101 .fsubD .floatArithmetic,
      rowRequiring .double 0b0001001 .fmulD .floatArithmetic,
      rowRequiring .double 0b0001101 .fdivD .floatArithmetic,
      move 0b1110000 [requiring .float [leaf .fmvXW .floatToInteger]],
      move 0b1111000 [requiring .float [leaf .fmvWX .integerToFloat]],
      move 0b1110001
        [requiring .double [requiring .rv64 [leaf .fmvXD .floatToInteger]]],
      move 0b1111001
        [requiring .double [requiring .rv64 [leaf .fmvDX .integerToFloat]]]]

/-- The decode program of the 32-bit words. -/
def program : Program :=
  .ofList
    [check 0 2 0b11
      [switch 2 5
        [row 0b01101 .lui .upper,
          row 0b00101 .auipc .upper,
          row 0b11011 .jal .jump,
          case 0b11001 [check 12 3 0 [leaf .jalr .jumpRegister]],
          case 0b11000 [branches],
          case 0b00000 [loads],
          case 0b01000 [stores],
          case 0b00100 [constants],
          case 0b00110 [requiring .rv64 [wordConstants]],
          case 0b01100 [registers],
          case 0b01110 [requiring .rv64 [wordRegisters]],
          case 0b00011 [fences],
          case 0b11100 [system],
          case 0b00001
            [switch 12 3
              [rowRequiring .float 0b010 .flw .floatLoad,
                rowRequiring .double 0b011 .fld .floatLoad]],
          case 0b01001
            [switch 12 3
              [rowRequiring .float 0b010 .fsw .floatStore,
                rowRequiring .double 0b011 .fsd .floatStore]],
          case 0b10100 [floats]]]]

/-- The decode table of the 32-bit words. -/
def table : Table :=
  program.toTable "riscv32" 32

end MachineCode.RiscV.Wide
