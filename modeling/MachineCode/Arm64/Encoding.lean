import MachineCode.Arm64.Format
import MachineCode.Arm64.Opcode
import MachineCode.Feature
import MachineCode.Table.Statement

/-!
# Arm64 encodings

The decode program of the 32-bit words. Bits 25 to 28 select one of five
groups: data processing with a constant, branches and the system, loads and
stores, data processing with registers, and floating-point arithmetic. Each
group is divided further until one opcode is left.
-/

namespace MachineCode.Arm64

open Statement

/-- What an encoding may require of the processor. -/
inductive Requirement where
  | float
  | half
  | vector
deriving DecidableEq, Repr

namespace Requirement

/-- The number of requirements. -/
def count : Nat :=
  3

/-- The number of a requirement. -/
def id (requirement : Requirement) : Nat :=
  requirement.ctorIdx

/-- The requirement of a number. -/
def ofId? (number : Nat) : Option Requirement :=
  if number < count then some (ofNat number) else none

@[simp]
theorem ofId?_id (requirement : Requirement) :
    ofId? requirement.id = some requirement := by
  cases requirement <;> rfl

/-- Whether a processor meets the requirement. -/
def met (features : Features) : Requirement → Bool
  | .float => features.has .arm64Float
  | .half => features.has .arm64Half
  | .vector => features.has .arm64Vector

end Requirement

/-- End with an opcode. -/
def leaf (opcode : Opcode) (format : Format) : Statement :=
  Program.decode opcode.id format.id

/-- End with an opcode, expecting some bits to be one. -/
def leafOnes (opcode : Opcode) (format : Format) (ones : Nat) : Statement :=
  Program.decodeExpecting opcode.id format.id 0 ones

/-- Enter the body if the processor meets a requirement. -/
def requiring (requirement : Requirement) (body : List Statement) :
    Statement :=
  require requirement.id body

/-- Choose among opcodes of one format by a field. -/
def choose
    (start length : Nat)
    (format : Format)
    (entries : List (Nat × Opcode)) :
    Statement :=
  switch start length
    (entries.map fun (value, opcode) => case value [leaf opcode format])

/-- Data processing with a constant. -/
def constants : List Statement :=
  [switch 23 3
    [caseAny [0b000, 0b001]
      [choose 31 1 .nearAddress [(0, .adr), (1, .adrp)]],
    case 0b010
      [choose 29 2 .addConstant
        [(0b00, .addImmediate),
          (0b01, .addsImmediate),
          (0b10, .subImmediate),
          (0b11, .subsImmediate)]],
    case 0b100
      [choose 29 2 .logicalConstant
        [(0b00, .andImmediate),
          (0b01, .orrImmediate),
          (0b10, .eorImmediate),
          (0b11, .andsImmediate)]],
    case 0b101
      [choose 29 2 .wideMove
        [(0b00, .movn), (0b10, .movz), (0b11, .movk)]],
    case 0b110
      [choose 29 2 .bitfield
        [(0b00, .sbfm), (0b01, .bfm), (0b10, .ubfm)]],
    case 0b111 [check 29 2 0 [check 21 1 0 [leaf .extr .extract]]]]]

/-- The conditional branches, in the order of the codes of conditions. -/
def conditionalBranches : List (Nat × Opcode) :=
  [(0b0000, .bEq),
    (0b0001, .bNe),
    (0b0010, .bHs),
    (0b0011, .bLo),
    (0b0100, .bMi),
    (0b0101, .bPl),
    (0b0110, .bVs),
    (0b0111, .bVc),
    (0b1000, .bHi),
    (0b1001, .bLs),
    (0b1010, .bGe),
    (0b1011, .bLt),
    (0b1100, .bGt),
    (0b1101, .bLe),
    (0b1110, .bAl),
    (0b1111, .bNv)]

/-- The instructions that raise an exception. -/
def exceptions : List Statement :=
  [switch 21 3
    [case 0b000
      [check 2 3 0
        [choose 0 2 .exception [(1, .svc), (2, .hvc), (3, .smc)]]],
    case 0b001 [check 0 5 0 [leaf .brk .exception]],
    case 0b010 [check 0 5 0 [leaf .hlt .exception]]]]

/-- Hints, and moves of system registers. -/
def systemInstructions : List Statement :=
  [check 12 10 0b0000110010 [check 0 5 0b11111 [leaf .hint .hint]],
    switch 20 2
      [case 0b11 [leaf .mrs .fromSystem],
      case 0b01 [leaf .msr .toSystem]]]

/-- The branches to a register. -/
def registerBranches : List Statement :=
  [check 16 5 0b11111
    [check 10 6 0
      [check 0 5 0
        [switch 21 3
          [case 0b000 [leaf .br .branchRegister],
          case 0b001 [leaf .blr .branchRegister],
          case 0b010 [leaf .ret .branchRegister],
          case 0b100 [check 5 5 0b11111 [leaf .eret .bare]]]]]]]

/-- Branches and the system. -/
def branches : List Statement :=
  [switch 29 3
    [case 0b000 [leaf .b .branch],
    case 0b100 [leaf .bl .branch],
    caseAny [0b001, 0b101]
      [switch 24 2
        [case 0b00 [leaf .cbz .compareBranch],
        case 0b01 [leaf .cbnz .compareBranch],
        case 0b10 [leaf .tbz .testBranch],
        case 0b11 [leaf .tbnz .testBranch]]],
    case 0b010
      [check 24 2 0
        [check 4 1 0 [choose 0 4 .conditionalBranch conditionalBranches]]],
    case 0b110
      [switch 24 2
        [case 0b00 exceptions,
        case 0b01 [check 22 2 0 systemInstructions],
        case 0b10 registerBranches]]]]

/-- The bits of a register that an exclusive access has no use for. -/
def outcomeBits : Nat :=
  0x1f <<< 16

/-- The bits of a second register, which single accesses have no use for. -/
def secondBits : Nat :=
  0x1f <<< 10

/-- The exclusive and the ordered accesses. -/
def exclusives : List Statement :=
  [check 31 1 1
    [switch 21 3
      [case 0b000
        [switch 15 1
          [case 0 [leafOnes .stxr .exclusiveStore secondBits],
          case 1 [leafOnes .stlxr .exclusiveStore secondBits]]],
      case 0b010
        [switch 15 1
          [case 0 [leafOnes .ldxr .exclusive (outcomeBits ||| secondBits)],
          case 1 [leafOnes .ldaxr .exclusive (outcomeBits ||| secondBits)]]],
      case 0b100
        [check 15 1 1
          [leafOnes .stlr .exclusive (outcomeBits ||| secondBits)]],
      case 0b110
        [check 15 1 1
          [leafOnes .ldar .exclusive (outcomeBits ||| secondBits)]]]]]

/-- The accesses of consecutive vector registers. -/
def structures : List Statement :=
  [check 31 1 0
    [switch 23 1
      [case 0
        [check 16 6 0 [choose 22 1 .structures [(0, .st1), (1, .ld1)]]],
      case 1
        [check 21 1 0
          [choose 22 1 .structuresUpdating [(0, .st1), (1, .ld1)]]]]]]

/-- The accesses of one register, by their size and direction. -/
def singles (format : Format) : List Statement :=
  [switch 30 2
    [case 0b00 [choose 22 2 format [(0b00, .strb), (0b01, .ldrb)]],
    case 0b01 [choose 22 2 format [(0b00, .strh), (0b01, .ldrh)]],
    case 0b10
      [choose 22 2 format [(0b00, .str), (0b01, .ldr), (0b10, .ldrsw)]],
    case 0b11 [choose 22 2 format [(0b00, .str), (0b01, .ldr)]]]]

/-- Loads and stores. -/
def loadsAndStores : List Statement :=
  [switch 27 3
    [case 0b001
      [switch 24 3
        [case 0b000 exclusives,
        case 0b100 [requiring .vector structures]]],
    case 0b011
      [check 24 1 0
        [check 26 1 0
          [choose 30 2 .literal
            [(0b00, .ldr), (0b01, .ldr), (0b10, .ldrsw)]]]],
    case 0b101
      [check 26 1 0
        [switch 23 2
          [caseAny [0b01, 0b10, 0b11]
            [choose 22 1 .pair [(0, .stp), (1, .ldp)]]]]],
    case 0b111
      [check 26 1 0
        [switch 24 2
          [case 0b01 (singles .unsignedOffset),
          case 0b00
            [switch 21 1
              [case 0
                [switch 10 2 [caseAny [0b01, 0b11] (singles .indexed)]],
              case 1 [check 10 2 0b10 (singles .registerOffset)]]]]]]]]

/-- The bitwise operations; a bit inverts the second source. -/
def logicalRegisters : List Statement :=
  [switch 29 2
    [case 0b00
      [choose 21 1 .logicalRegister [(0, .andRegister), (1, .bicRegister)]],
    case 0b01
      [choose 21 1 .logicalRegister [(0, .orrRegister), (1, .ornRegister)]],
    case 0b10
      [choose 21 1 .logicalRegister [(0, .eorRegister), (1, .eonRegister)]],
    case 0b11
      [choose 21 1 .logicalRegister
        [(0, .andsRegister), (1, .bicsRegister)]]]]

/-- The conditional selections. -/
def selections : List Statement :=
  [check 29 1 0
    [check 11 1 0
      [switch 30 1
        [case 0 [choose 10 1 .select [(0, .csel), (1, .csinc)]],
        case 1 [choose 10 1 .select [(0, .csinv), (1, .csneg)]]]]]]

/-- Data processing with registers. -/
def registers : List Statement :=
  [switch 28 1
    [case 0
      [switch 24 1
        [case 0 logicalRegisters,
        case 1
          [check 21 1 0
            [choose 29 2 .addRegister
              [(0b00, .addRegister),
                (0b01, .addsRegister),
                (0b10, .subRegister),
                (0b11, .subsRegister)]]]]],
    case 1
      [switch 21 4
        [case 0b0100 selections,
        case 0b0110
          [check 29 2 0
            [choose 10 6 .twoSources
              [(0b000010, .udiv),
                (0b000011, .sdiv),
                (0b001000, .lslv),
                (0b001001, .lsrv),
                (0b001010, .asrv),
                (0b001011, .rorv)]]],
        case 0b1000
          [check 29 2 0
            [choose 15 1 .threeSources [(0, .madd), (1, .msub)]]]]]]]

/-- Floating-point arithmetic in one precision. -/
def floatsOfPrecision : List Statement :=
  [switch 10 2
    [case 0b00
      [check 12 1 1 [check 5 5 0 [leaf .fmovImmediate .floatConstant]]],
    case 0b10
      [choose 12 4 .floatArithmetic
        [(0, .fmul), (1, .fdiv), (2, .fadd), (3, .fsub)]]]]

/-- Floating-point arithmetic. -/
def floatArithmetic : List Statement :=
  [check 24 8 0b00011110
    [check 21 1 1
      [switch 22 2
        [caseAny [0b00, 0b01] floatsOfPrecision,
        case 0b11 [requiring .half floatsOfPrecision]]]]]

/-- The decode program. -/
def program : Program :=
  .ofList
    [switch 25 4
      [caseAny [0b1000, 0b1001] constants,
      caseAny [0b1010, 0b1011] branches,
      caseAny [0b0100, 0b0110, 0b1100, 0b1110] loadsAndStores,
      caseAny [0b0101, 0b1101] registers,
      caseAny [0b0111, 0b1111] [requiring .float floatArithmetic]]]

/-- The decode table. -/
def table : Table :=
  program.toTable "arm64" 32

end MachineCode.Arm64
