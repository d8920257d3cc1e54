import MachineCode.C64x.Format
import MachineCode.C64x.Opcode
import MachineCode.Table.Statement

/-!
# C64x encodings

The decode program of the 32-bit words. Bits 6 to 2 select the unit or the
kind of instruction, and a field of that kind selects the opcode and the
operand format. Words that are zero but for a few bits are idle or do nothing.
-/

namespace MachineCode.C64x

open Statement

/-- End with an opcode. -/
def leaf (opcode : Opcode) (format : Format) : Statement :=
  Program.decode opcode.id format.id

/-- End with an opcode, expecting some bits to be zero. -/
def leafZeros (opcode : Opcode) (format : Format) (zeros : Nat) : Statement :=
  Program.decodeExpecting opcode.id format.id zeros 0

/-- The cases of a switch that each end with an opcode. -/
def leaves (rows : List (Nat × Opcode × Format)) : List Case :=
  rows.map fun (value, opcode, format) => case value [leaf opcode format]

/-- The instructions of the .L units. -/
def lUnit : Statement :=
  switch 5 7 <|
    leaves
      [(0b0000011, .add, .lRegisters),
        (0b0000010, .add, .lConstant),
        (0b0100011, .add, .lLongDestination),
        (0b0100001, .add, .lLongSource),
        (0b0000111, .sub, .lRegisters),
        (0b0000110, .sub, .lConstant),
        (0b1111011, .and, .lRegisters),
        (0b1111010, .and, .lConstant),
        (0b1111111, .or, .lRegisters),
        (0b1111110, .or, .lConstant),
        (0b1101111, .xor, .lRegisters),
        (0b1101110, .xor, .lConstant),
        (0b1010011, .cmpeq, .lRegisters),
        (0b1010010, .cmpeq, .lConstant),
        (0b1000111, .cmpgt, .lRegisters),
        (0b1000110, .cmpgt, .lConstant),
        (0b1010111, .cmplt, .lRegisters),
        (0b1010110, .cmplt, .lConstant)] ++
      [case 0b0011010 [leafZeros .abs .lUnary (0x1f <<< 13)]]

/-- The instructions of the .S units; the control forms exist on .S2 only. -/
def sUnit : List Statement :=
  [switch 6 6 <|
    leaves
      [(0b000111, .add, .sRegisters),
        (0b000110, .add, .sConstant),
        (0b010111, .sub, .sRegisters),
        (0b010110, .sub, .sConstant),
        (0b011111, .and, .sRegisters),
        (0b011110, .and, .sConstant),
        (0b011011, .or, .sRegisters),
        (0b011010, .or, .sConstant),
        (0b001011, .xor, .sRegisters),
        (0b001010, .xor, .sConstant),
        (0b110011, .shl, .sShift),
        (0b110010, .shl, .sShiftConstant),
        (0b110111, .shr, .sShift),
        (0b110110, .shr, .sShiftConstant),
        (0b100111, .shru, .sShift),
        (0b100110, .shru, .sShiftConstant)] ++
      [case 0b001110 [check 1 1 1 [leaf .mvc .moveToControl]],
        case 0b001111
          [check 1 1 1 [leafZeros .mvc .moveFromControl (1 <<< 12)]],
        case 0b001101
          [check 1 1 1
            [leafZeros .branchRegister .branchRegister
              ((0x1f <<< 23) ||| (0x1f <<< 13))]],
        -- The two pointers to return addresses.
        case 0b000011
          [check 1 1 1
            [switch 18 5
              [caseAny [6, 7]
                [leafZeros .branchReturn .branchReturn
                  ((0x1f <<< 23) ||| (0x3f <<< 12))]]]]]]

/-- The instructions of the .M units. -/
def mUnit : Statement :=
  switch 7 5 <|
    leaves
      [(0b11001, .mpy, .mRegisters),
        (0b11000, .mpy, .mConstant),
        (0b00001, .mpyh, .mRegisters),
        (0b01001, .mpyhl, .mRegisters),
        (0b10001, .mpylh, .mRegisters),
        (0b11111, .mpyu, .mRegisters),
        (0b11010, .smpy, .mRegisters)]

/-- The address arithmetic of the .D units. -/
def dUnit : Statement :=
  switch 7 6 <|
    leaves
      [(0b010000, .add, .dRegisters),
        (0b010010, .add, .dConstant),
        (0b010001, .sub, .dRegisters),
        (0b010011, .sub, .dConstant),
        (0b110000, .addab, .dRegisters),
        (0b110010, .addab, .dConstant),
        (0b110100, .addah, .dRegisters),
        (0b110110, .addah, .dConstant),
        (0b111000, .addaw, .dRegisters),
        (0b111010, .addaw, .dConstant),
        (0b110001, .subab, .dRegisters),
        (0b110011, .subab, .dConstant),
        (0b110101, .subah, .dRegisters),
        (0b110111, .subah, .dConstant),
        (0b111001, .subaw, .dRegisters),
        (0b111011, .subaw, .dConstant)]

/-- The loads and stores with an addressing mode. -/
def loadsAndStores : List Statement :=
  [switch 8 1
    [case 0
      [switch 4 3 <|
        leaves
          [(0b000, .ldhu, .load2),
            (0b001, .ldbu, .load1),
            (0b010, .ldb, .load1),
            (0b011, .stb, .store1),
            (0b100, .ldh, .load2),
            (0b101, .sth, .store2),
            (0b110, .ldw, .load4),
            (0b111, .stw, .store4)]],
      case 1
        [switch 4 3 <|
          leaves
            [(0b010, .ldndw, .loadUnaligned8),
              (0b011, .ldnw, .load4),
              (0b100, .stdw, .store8),
              (0b101, .stnw, .store4),
              (0b110, .lddw, .load8),
              (0b111, .stndw, .storeUnaligned8)]]]]

/-- The loads and stores with a long offset. -/
def farLoadsAndStores : List Statement :=
  [switch 4 3 <|
    leaves
      [(0b000, .ldhu, .loadFar2),
        (0b001, .ldbu, .loadFar1),
        (0b010, .ldb, .loadFar1),
        (0b011, .stb, .storeFar1),
        (0b100, .ldh, .loadFar2),
        (0b101, .sth, .storeFar2),
        (0b110, .ldw, .loadFar4),
        (0b111, .stw, .storeFar4)]]

/-- The decode program. -/
def program : Program :=
  .ofList
    [check 17 15 0
      [check 1 12 0
        [check 13 4 0b1111 [leaf .idle .idle],
          leaf .nop .nop]],
      switch 2 2
        [case 0b00
          [switch 4 2
            [case 0b00 [check 6 1 0 [mUnit, fail], dUnit],
              case 0b01
                [check 6 1 0 [leaf .branch .branch],
                  leaf .addk .addConstant],
              case 0b10 sUnit]],
          case 0b01 loadsAndStores,
          case 0b10
            [check 4 1 1 [lUnit, fail],
              check 5 1 1
                [check 6 1 0 [leaf .mvk .moveConstant],
                  leaf .mvkh .moveHighConstant]],
          case 0b11 farLoadsAndStores]]

/-- The decode table. -/
def table : Table :=
  program.toTable "tms320c64x" 32

end MachineCode.C64x
