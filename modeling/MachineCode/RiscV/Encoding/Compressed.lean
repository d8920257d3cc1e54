import MachineCode.RiscV.Encoding

/-!
# RISC-V encodings of 16 bits

The decode program of the compressed words. The low two bits select one of
three quadrants, and the high three bits a group within it. Some groups hold
an integer form where registers have 64 bits and a floating-point form
otherwise.
-/

namespace MachineCode.RiscV.Compressed

open Statement

/-- An integer form of wide registers, or else a floating-point form. -/
def wideOrFloat
    (value : Nat)
    (wide : Opcode)
    (wideFormat : Format)
    (float : Opcode)
    (floatFormat : Format) :
    Case :=
  case value
    [requiring .rv64 [leaf wide wideFormat],
      requiring .float [leaf float floatFormat]]

/-- Loads and stores with short register numbers. -/
def quadrant0 : Statement :=
  switch 13 3
    [case 0b000
      -- A distance of zero is reserved; the word of zeros is among these.
      [check 5 8 0 [fail], leaf .cAddi4spn .stackAddress],
      rowRequiring .double 0b001 .cFld .shortFloatLoadDouble,
      row 0b010 .cLw .shortLoadWord,
      wideOrFloat 0b011 .cLd .shortLoadDouble .cFlw .shortFloatLoadWord,
      rowRequiring .double 0b101 .cFsd .shortFloatStoreDouble,
      row 0b110 .cSw .shortStoreWord,
      wideOrFloat 0b111 .cSd .shortStoreDouble .cFsw .shortFloatStoreWord]

/-- The bits of a constant of six bits. -/
def constantBits : Nat :=
  (1 <<< 12) ||| (0x1f <<< 2)

/-- Arithmetic with short register numbers. -/
def arithmetic : Statement :=
  switch 10 2
    [row 0b00 .cSrli .shortShift,
      row 0b01 .cSrai .shortShift,
      row 0b10 .cAndi .shortAnd,
      case 0b11
        [switch 12 1
          [case 0
            [switch 5 2 <|
              rows .shortArithmetic
                [(0b00, .cSub), (0b01, .cXor), (0b10, .cOr), (0b11, .cAnd)]],
            case 1
              [requiring .rv64
                [switch 5 2 <|
                  rows .shortArithmetic
                    [(0b00, .cSubw), (0b01, .cAddw)]]]]]]

/-- Constants, arithmetic, jumps and branches. -/
def quadrant1 : Statement :=
  switch 13 3
    [case 0b000
      [check 7 5 0 [leafZeros .cNop .bare constantBits],
        leaf .cAddi .shortAdd],
      case 0b001
        [requiring .rv64 [leaf .cAddiw .shortAddWord],
          leaf .cJal .shortJump],
      row 0b010 .cLi .shortLoadConstant,
      case 0b011
        [check 7 5 2 [leaf .cAddi16sp .stackChange],
          leaf .cLui .shortUpper],
      case 0b100 [arithmetic],
      row 0b101 .cJ .shortJump,
      row 0b110 .cBeqz .shortBranch,
      row 0b111 .cBnez .shortBranch]

/-- Accesses to the stack, register moves and indirect jumps. -/
def quadrant2 : Statement :=
  switch 13 3
    [row 0b000 .cSlli .shortShiftLeft,
      rowRequiring .double 0b001 .cFldsp .stackFloatLoadDouble,
      row 0b010 .cLwsp .stackLoadWord,
      wideOrFloat 0b011 .cLdsp .stackLoadDouble .cFlwsp .stackFloatLoadWord,
      case 0b100
        [switch 12 1
          [case 0
            [check 2 5 0 [leaf .cJr .shortJumpRegister],
              leaf .cMv .shortMove],
            case 1
              [check 2 5 0
                [check 7 5 0 [leaf .cEbreak .bare],
                  leaf .cJalr .shortJumpRegister],
                leaf .cAdd .shortAddRegister]]],
      rowRequiring .double 0b101 .cFsdsp .stackFloatStoreDouble,
      row 0b110 .cSwsp .stackStoreWord,
      wideOrFloat 0b111 .cSdsp .stackStoreDouble .cFswsp .stackFloatStoreWord]

/-- The decode program of the compressed words. -/
def program : Program :=
  .ofList
    [requiring .compressed
      [switch 0 2
        [case 0b00 [quadrant0], case 0b01 [quadrant1], case 0b10 [quadrant2]]]]

/-- The decode table of the compressed words. -/
def table : Table :=
  program.toTable "riscv16" 16

end MachineCode.RiscV.Compressed
