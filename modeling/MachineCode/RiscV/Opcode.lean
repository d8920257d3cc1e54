import MachineCode.Opcode

/-!
# RISC-V opcodes

Each compressed opcode is one of its own, and so is each pseudo-instruction;
these come last. The destination comes before the sources. The link register
is listed as RV64 has it, whatever the width of the integer registers; the
instruction set gives it the right width in the end.
-/

namespace MachineCode.RiscV

/-- The opcodes, numbered in order from zero. -/
inductive Opcode where
  | lui
  | auipc
  | jal
  | jalr
  | beq
  | bne
  | blt
  | bge
  | bltu
  | bgeu
  | lb
  | lh
  | lw
  | ld
  | lbu
  | lhu
  | lwu
  | sb
  | sh
  | sw
  | sd
  | addi
  | slti
  | sltiu
  | xori
  | ori
  | andi
  | slli
  | srli
  | srai
  | addiw
  | slliw
  | srliw
  | sraiw
  | add
  | sub
  | sll
  | slt
  | sltu
  | xor
  | srl
  | sra
  | or
  | and
  | addw
  | subw
  | sllw
  | srlw
  | sraw
  | fence
  | fenceI
  | ecall
  | ebreak
  | sret
  | mret
  | wfi
  | csrrw
  | csrrs
  | csrrc
  | csrrwi
  | csrrsi
  | csrrci
  | mul
  | mulh
  | mulhsu
  | mulhu
  | div
  | divu
  | rem
  | remu
  | mulw
  | divw
  | divuw
  | remw
  | remuw
  | flw
  | fld
  | fsw
  | fsd
  | faddS
  | fsubS
  | fmulS
  | fdivS
  | faddD
  | fsubD
  | fmulD
  | fdivD
  | fmvXW
  | fmvWX
  | fmvXD
  | fmvDX
  | cAddi4spn
  | cFld
  | cLw
  | cLd
  | cFlw
  | cFsd
  | cSw
  | cSd
  | cFsw
  | cNop
  | cAddi
  | cAddiw
  | cJal
  | cLi
  | cAddi16sp
  | cLui
  | cSrli
  | cSrai
  | cAndi
  | cSub
  | cXor
  | cOr
  | cAnd
  | cSubw
  | cAddw
  | cJ
  | cBeqz
  | cBnez
  | cSlli
  | cFldsp
  | cLwsp
  | cLdsp
  | cFlwsp
  | cJr
  | cMv
  | cEbreak
  | cJalr
  | cAdd
  | cFsdsp
  | cSwsp
  | cSdsp
  | cFswsp
  | nop
  | li
  | mv
  | not
  | neg
  | negw
  | sextW
  | seqz
  | snez
  | sltz
  | sgtz
  | beqz
  | bnez
  | blez
  | bgez
  | bltz
  | bgtz
  | j
  | jalLink
  | ret
  | jr
  | jalrLink
  | rdcycle
  | rdtime
  | rdinstret
  | csrr
  | csrw
  | csrs
  | csrc
  | csrwi
  | csrsi
  | csrci
  | fenceAll
deriving DecidableEq, Repr

/-- The register in which calls leave the return address. -/
def returnAddress : Register :=
  ⟨.riscV64, .general, 1, 64⟩

namespace Opcode

/-- The number of opcodes. -/
def count : Nat :=
  166

/-- The number of an opcode. -/
def id (opcode : Opcode) : Nat :=
  opcode.ctorIdx

/-- The opcode of a number. -/
def ofId? (number : Nat) : Option Opcode :=
  if number < count then some (ofNat number) else none

@[simp]
theorem ofId?_id (opcode : Opcode) : ofId? opcode.id = some opcode := by
  cases opcode <;> rfl

/-- No operands. -/
def bare (mnemonic : String) (operation : Operation) : OpcodeInfo :=
  { mnemonic, operation }

/-- A destination and a source. -/
def unary (mnemonic : String) (operation : Operation) : OpcodeInfo :=
  { mnemonic, operation, access := [.write, .read] }

/-- A destination and two sources. -/
def binary (mnemonic : String) (operation : Operation) : OpcodeInfo :=
  { mnemonic, operation, access := [.write, .read, .read] }

/-- A destination that is also a source, and another source. -/
def update (mnemonic : String) (operation : Operation) : OpcodeInfo :=
  { mnemonic, operation, access := [.readWrite, .read] }

/-- A source and the memory it is stored to. -/
def store (mnemonic : String) : OpcodeInfo :=
  { mnemonic, operation := .store, access := [.read, .write] }

/-- A destination, a control register that is read and written, a source. -/
def exchange (mnemonic : String) : OpcodeInfo :=
  { mnemonic
    operation := .systemAccess
    access := [.write, .readWrite, .read] }

/-- A relative branch under a condition, with `operands` operands. -/
def branch (mnemonic : String) (condition : Condition) (operands : Nat) :
    OpcodeInfo :=
  { mnemonic
    operation := .conditionalJump
    access := List.replicate operands .read
    groups := .ofList [.jump, .branchRelative]
    condition := some condition }

/-- The same opcode, working on floating-point data. -/
def float (info : OpcodeInfo) : OpcodeInfo :=
  { info with groups := .ofList [.float] }

/-- The description of an opcode. -/
def info : Opcode → OpcodeInfo
  | .lui => unary "lui" .move
  | .auipc => unary "auipc" .loadAddress
  | .jal =>
    { mnemonic := "jal", operation := .call
      access := [.write, .read]
      groups := .ofList [.call, .branchRelative] }
  | .jalr =>
    { mnemonic := "jalr", operation := .call
      access := [.write, .read, .read]
      groups := .ofList [.call] }
  | .beq => branch "beq" .equal 3
  | .bne => branch "bne" .notEqual 3
  | .blt => branch "blt" .less 3
  | .bge => branch "bge" .greaterOrEqual 3
  | .bltu => branch "bltu" .below 3
  | .bgeu => branch "bgeu" .aboveOrEqual 3
  | .lb => unary "lb" .load
  | .lh => unary "lh" .load
  | .lw => unary "lw" .load
  | .ld => unary "ld" .load
  | .lbu => unary "lbu" .load
  | .lhu => unary "lhu" .load
  | .lwu => unary "lwu" .load
  | .sb => store "sb"
  | .sh => store "sh"
  | .sw => store "sw"
  | .sd => store "sd"
  | .addi => binary "addi" .add
  | .slti => binary "slti" .compare
  | .sltiu => binary "sltiu" .compare
  | .xori => binary "xori" .xor
  | .ori => binary "ori" .or
  | .andi => binary "andi" .and
  | .slli => binary "slli" .shiftLeft
  | .srli => binary "srli" .shiftRight
  | .srai => binary "srai" .shiftRightArithmetic
  | .addiw => binary "addiw" .add
  | .slliw => binary "slliw" .shiftLeft
  | .srliw => binary "srliw" .shiftRight
  | .sraiw => binary "sraiw" .shiftRightArithmetic
  | .add => binary "add" .add
  | .sub => binary "sub" .sub
  | .sll => binary "sll" .shiftLeft
  | .slt => binary "slt" .compare
  | .sltu => binary "sltu" .compare
  | .xor => binary "xor" .xor
  | .srl => binary "srl" .shiftRight
  | .sra => binary "sra" .shiftRightArithmetic
  | .or => binary "or" .or
  | .and => binary "and" .and
  | .addw => binary "addw" .add
  | .subw => binary "subw" .sub
  | .sllw => binary "sllw" .shiftLeft
  | .srlw => binary "srlw" .shiftRight
  | .sraw => binary "sraw" .shiftRightArithmetic
  | .fence =>
    { mnemonic := "fence", operation := .fence
      access := [.read, .read] }
  | .fenceI => bare "fence.i" .fence
  | .ecall =>
    { mnemonic := "ecall", operation := .syscall
      groups := .ofList [.interrupt] }
  | .ebreak =>
    { mnemonic := "ebreak", operation := .interrupt
      groups := .ofList [.interrupt] }
  | .sret =>
    { mnemonic := "sret", operation := .ret
      groups := .ofList [.ret, .privilege] }
  | .mret =>
    { mnemonic := "mret", operation := .ret
      groups := .ofList [.ret, .privilege] }
  | .wfi =>
    { mnemonic := "wfi", operation := .halt
      groups := .ofList [.privilege] }
  | .csrrw => exchange "csrrw"
  | .csrrs => exchange "csrrs"
  | .csrrc => exchange "csrrc"
  | .csrrwi => exchange "csrrwi"
  | .csrrsi => exchange "csrrsi"
  | .csrrci => exchange "csrrci"
  | .mul => binary "mul" .mul
  | .mulh => binary "mulh" .mul
  | .mulhsu => binary "mulhsu" .mul
  | .mulhu => binary "mulhu" .mul
  | .div => binary "div" .div
  | .divu => binary "divu" .div
  | .rem => binary "rem" .div
  | .remu => binary "remu" .div
  | .mulw => binary "mulw" .mul
  | .divw => binary "divw" .div
  | .divuw => binary "divuw" .div
  | .remw => binary "remw" .div
  | .remuw => binary "remuw" .div
  | .flw => float <| unary "flw" .load
  | .fld => float <| unary "fld" .load
  | .fsw => float <| store "fsw"
  | .fsd => float <| store "fsd"
  | .faddS => float <| binary "fadd.s" .add
  | .fsubS => float <| binary "fsub.s" .sub
  | .fmulS => float <| binary "fmul.s" .mul
  | .fdivS => float <| binary "fdiv.s" .div
  | .faddD => float <| binary "fadd.d" .add
  | .fsubD => float <| binary "fsub.d" .sub
  | .fmulD => float <| binary "fmul.d" .mul
  | .fdivD => float <| binary "fdiv.d" .div
  | .fmvXW => float <| unary "fmv.x.w" .move
  | .fmvWX => float <| unary "fmv.w.x" .move
  | .fmvXD => float <| unary "fmv.x.d" .move
  | .fmvDX => float <| unary "fmv.d.x" .move
  | .cAddi4spn => binary "c.addi4spn" .add
  | .cFld => float <| unary "c.fld" .load
  | .cLw => unary "c.lw" .load
  | .cLd => unary "c.ld" .load
  | .cFlw => float <| unary "c.flw" .load
  | .cFsd => float <| store "c.fsd"
  | .cSw => store "c.sw"
  | .cSd => store "c.sd"
  | .cFsw => float <| store "c.fsw"
  | .cNop => bare "c.nop" .nop
  | .cAddi => update "c.addi" .add
  | .cAddiw => update "c.addiw" .add
  | .cJal =>
    { mnemonic := "c.jal", operation := .call
      access := [.read]
      implicitWrites := [returnAddress]
      groups := .ofList [.call, .branchRelative] }
  | .cLi => unary "c.li" .move
  | .cAddi16sp => update "c.addi16sp" .add
  | .cLui => unary "c.lui" .move
  | .cSrli => update "c.srli" .shiftRight
  | .cSrai => update "c.srai" .shiftRightArithmetic
  | .cAndi => update "c.andi" .and
  | .cSub => update "c.sub" .sub
  | .cXor => update "c.xor" .xor
  | .cOr => update "c.or" .or
  | .cAnd => update "c.and" .and
  | .cSubw => update "c.subw" .sub
  | .cAddw => update "c.addw" .add
  | .cJ =>
    { mnemonic := "c.j", operation := .jump
      access := [.read]
      groups := .ofList [.jump, .branchRelative] }
  | .cBeqz => branch "c.beqz" .equal 2
  | .cBnez => branch "c.bnez" .notEqual 2
  | .cSlli => update "c.slli" .shiftLeft
  | .cFldsp => float <| unary "c.fldsp" .load
  | .cLwsp => unary "c.lwsp" .load
  | .cLdsp => unary "c.ldsp" .load
  | .cFlwsp => float <| unary "c.flwsp" .load
  | .cJr =>
    { mnemonic := "c.jr", operation := .jump
      access := [.read]
      groups := .ofList [.jump] }
  | .cMv => unary "c.mv" .move
  | .cEbreak =>
    { mnemonic := "c.ebreak", operation := .interrupt
      groups := .ofList [.interrupt] }
  | .cJalr =>
    { mnemonic := "c.jalr", operation := .call
      access := [.read]
      implicitWrites := [returnAddress]
      groups := .ofList [.call] }
  | .cAdd => update "c.add" .add
  | .cFsdsp => float <| store "c.fsdsp"
  | .cSwsp => store "c.swsp"
  | .cSdsp => store "c.sdsp"
  | .cFswsp => float <| store "c.fswsp"
  | .nop => bare "nop" .nop
  | .li => unary "li" .move
  | .mv => unary "mv" .move
  | .not => unary "not" .not
  | .neg => unary "neg" .neg
  | .negw => unary "negw" .neg
  | .sextW => unary "sext.w" .move
  | .seqz => unary "seqz" .compare
  | .snez => unary "snez" .compare
  | .sltz => unary "sltz" .compare
  | .sgtz => unary "sgtz" .compare
  | .beqz => branch "beqz" .equal 2
  | .bnez => branch "bnez" .notEqual 2
  | .blez => branch "blez" .lessOrEqual 2
  | .bgez => branch "bgez" .greaterOrEqual 2
  | .bltz => branch "bltz" .less 2
  | .bgtz => branch "bgtz" .greater 2
  | .j =>
    { mnemonic := "j", operation := .jump
      access := [.read]
      groups := .ofList [.jump, .branchRelative] }
  | .jalLink =>
    { mnemonic := "jal", operation := .call
      access := [.read]
      implicitWrites := [returnAddress]
      groups := .ofList [.call, .branchRelative] }
  | .ret =>
    { mnemonic := "ret", operation := .ret
      implicitReads := [returnAddress]
      groups := .ofList [.ret] }
  | .jr =>
    { mnemonic := "jr", operation := .jump
      access := [.read]
      groups := .ofList [.jump] }
  | .jalrLink =>
    { mnemonic := "jalr", operation := .call
      access := [.read]
      implicitWrites := [returnAddress]
      groups := .ofList [.call] }
  | .rdcycle =>
    { mnemonic := "rdcycle", operation := .systemAccess
      access := [.write] }
  | .rdtime =>
    { mnemonic := "rdtime", operation := .systemAccess
      access := [.write] }
  | .rdinstret =>
    { mnemonic := "rdinstret", operation := .systemAccess
      access := [.write] }
  | .csrr => unary "csrr" .systemAccess
  | .csrw => unary "csrw" .systemAccess
  | .csrs => update "csrs" .systemAccess
  | .csrc => update "csrc" .systemAccess
  | .csrwi => unary "csrwi" .systemAccess
  | .csrsi => update "csrsi" .systemAccess
  | .csrci => update "csrci" .systemAccess
  | .fenceAll => bare "fence" .fence

end Opcode

end MachineCode.RiscV
