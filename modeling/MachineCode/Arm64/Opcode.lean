import MachineCode.Arm64.Register
import MachineCode.Opcode

/-!
# Arm64 opcodes

The data processing instructions have an opcode for each kind of second
operand, and the conditional branch one for each condition. The preferred
forms come last. The operands are described in the order in which they are
written, the destination first.
-/

namespace MachineCode.Arm64

/-- The opcodes, numbered in order from zero. -/
inductive Opcode where
  | adr
  | adrp
  | addImmediate
  | addsImmediate
  | subImmediate
  | subsImmediate
  | andImmediate
  | orrImmediate
  | eorImmediate
  | andsImmediate
  | movz
  | movn
  | movk
  | sbfm
  | bfm
  | ubfm
  | extr
  | b
  | bl
  | bEq
  | bNe
  | bHs
  | bLo
  | bMi
  | bPl
  | bVs
  | bVc
  | bHi
  | bLs
  | bGe
  | bLt
  | bGt
  | bLe
  | bAl
  | bNv
  | cbz
  | cbnz
  | tbz
  | tbnz
  | br
  | blr
  | ret
  | eret
  | svc
  | hvc
  | smc
  | brk
  | hlt
  | hint
  | mrs
  | msr
  | strb
  | ldrb
  | strh
  | ldrh
  | str
  | ldr
  | ldrsw
  | stp
  | ldp
  | ldxr
  | ldaxr
  | ldar
  | stxr
  | stlxr
  | stlr
  | ld1
  | st1
  | andRegister
  | bicRegister
  | orrRegister
  | ornRegister
  | eorRegister
  | eonRegister
  | andsRegister
  | bicsRegister
  | addRegister
  | addsRegister
  | subRegister
  | subsRegister
  | csel
  | csinc
  | csinv
  | csneg
  | madd
  | msub
  | udiv
  | sdiv
  | lslv
  | lsrv
  | asrv
  | rorv
  | fmovImmediate
  | fadd
  | fsub
  | fmul
  | fdiv
  | movStackPointer
  | cmpImmediate
  | cmnImmediate
  | tstImmediate
  | movLogical
  | movWide
  | movInverted
  | sxtb
  | sxth
  | sxtw
  | uxtb
  | uxth
  | lslImmediate
  | lsrImmediate
  | asrImmediate
  | rorImmediate
  | sbfiz
  | sbfx
  | ubfiz
  | ubfx
  | bfi
  | bfxil
  | retLink
  | nop
  | yield
  | wfe
  | wfi
  | sev
  | sevl
  | movRegister
  | mvn
  | tstRegister
  | cmpRegister
  | cmnRegister
  | neg
  | negs
  | cset
  | csetm
  | cinc
  | cinv
  | cneg
  | mul
  | mneg
  | lslRegister
  | lsrRegister
  | asrRegister
  | rorRegister
deriving DecidableEq, Repr

/-- The register in which calls leave the return address. -/
def returnAddress : Register :=
  ⟨.arm64, .general, linkRegister, 64⟩

namespace Opcode

/-- The number of opcodes. -/
def count : Nat :=
  144

/-- The number of an opcode. -/
def id (opcode : Opcode) : Nat :=
  opcode.ctorIdx

/-- The opcode of a number. -/
def ofId? (number : Nat) : Option Opcode :=
  if number < count then some (ofNat number) else none

@[simp]
theorem ofId?_id (opcode : Opcode) : ofId? opcode.id = some opcode := by
  cases opcode <;> rfl

theorem id_injective {left right : Opcode} (same : left.id = right.id) :
    left = right := by
  have found := congrArg ofId? same
  rw [ofId?_id, ofId?_id] at found
  exact Option.some.inj found

/-- No operands. -/
def bare (mnemonic : String) (operation : Operation) : OpcodeInfo :=
  { mnemonic, operation }

/-- A destination and a source. -/
def unary (mnemonic : String) (operation : Operation) : OpcodeInfo :=
  { mnemonic, operation, access := [.write, .read] }

/-- A destination and two sources. -/
def binary (mnemonic : String) (operation : Operation) : OpcodeInfo :=
  { mnemonic, operation, access := [.write, .read, .read] }

/-- A destination and three sources. -/
def ternary (mnemonic : String) (operation : Operation) : OpcodeInfo :=
  { mnemonic, operation, access := [.write, .read, .read, .read] }

/-- A source and the memory it is stored to. -/
def store (mnemonic : String) : OpcodeInfo :=
  { mnemonic, operation := .store, access := [.read, .write] }

/-- The same opcode, leaving the flags of its result. -/
def settingFlags (info : OpcodeInfo) : OpcodeInfo :=
  { info with implicitWrites := [conditionFlags] }

/-- Sources of which only the flags of a result are left. -/
def comparison (mnemonic : String) (operation : Operation) (operands : Nat) :
    OpcodeInfo :=
  settingFlags
    { mnemonic, operation, access := List.replicate operands .read }

/-- The same opcode, testing the flags. -/
def testingFlags (info : OpcodeInfo) : OpcodeInfo :=
  { info with implicitReads := [conditionFlags] }

/-- The same opcode, working on floating-point data. -/
def float (info : OpcodeInfo) : OpcodeInfo :=
  { info with groups := .ofList [.float] }

/-- A relative branch under a condition, with `operands` operands. -/
def branch (mnemonic : String) (condition : Condition) (operands : Nat) :
    OpcodeInfo :=
  { mnemonic
    operation := .conditionalJump
    access := List.replicate operands .read
    groups := .ofList [.jump, .branchRelative]
    condition := some condition }

/-- A relative branch that tests the flags. -/
def flagBranch (mnemonic : String) (condition : Condition) : OpcodeInfo :=
  testingFlags (branch mnemonic condition 1)

/-- The description of an opcode. -/
def info : Opcode → OpcodeInfo
  | .adr => unary "adr" .loadAddress
  | .adrp => unary "adrp" .loadAddress
  | .addImmediate => ternary "add" .add
  | .addsImmediate => settingFlags (ternary "adds" .add)
  | .subImmediate => ternary "sub" .sub
  | .subsImmediate => settingFlags (ternary "subs" .sub)
  | .andImmediate => binary "and" .and
  | .orrImmediate => binary "orr" .or
  | .eorImmediate => binary "eor" .xor
  | .andsImmediate => settingFlags (binary "ands" .and)
  | .movz => binary "movz" .move
  | .movn => binary "movn" .move
  | .movk =>
    { mnemonic := "movk", operation := .move
      access := [.readWrite, .read, .read] }
  | .sbfm => ternary "sbfm" .bitField
  | .bfm =>
    { mnemonic := "bfm", operation := .bitField
      access := [.readWrite, .read, .read, .read] }
  | .ubfm => ternary "ubfm" .bitField
  | .extr => ternary "extr" .bitField
  | .b =>
    { mnemonic := "b", operation := .jump
      access := [.read]
      groups := .ofList [.jump, .branchRelative] }
  | .bl =>
    { mnemonic := "bl", operation := .call
      access := [.read]
      implicitWrites := [returnAddress]
      groups := .ofList [.call, .branchRelative] }
  | .bEq => flagBranch "b.eq" .equal
  | .bNe => flagBranch "b.ne" .notEqual
  | .bHs => flagBranch "b.hs" .aboveOrEqual
  | .bLo => flagBranch "b.lo" .below
  | .bMi => flagBranch "b.mi" .negative
  | .bPl => flagBranch "b.pl" .nonNegative
  | .bVs => flagBranch "b.vs" .overflow
  | .bVc => flagBranch "b.vc" .noOverflow
  | .bHi => flagBranch "b.hi" .above
  | .bLs => flagBranch "b.ls" .belowOrEqual
  | .bGe => flagBranch "b.ge" .greaterOrEqual
  | .bLt => flagBranch "b.lt" .less
  | .bGt => flagBranch "b.gt" .greater
  | .bLe => flagBranch "b.le" .lessOrEqual
  | .bAl => branch "b.al" .always 1
  | .bNv => branch "b.nv" .never 1
  | .cbz => branch "cbz" .equal 2
  | .cbnz => branch "cbnz" .notEqual 2
  | .tbz => branch "tbz" .equal 3
  | .tbnz => branch "tbnz" .notEqual 3
  | .br =>
    { mnemonic := "br", operation := .jump
      access := [.read]
      groups := .ofList [.jump] }
  | .blr =>
    { mnemonic := "blr", operation := .call
      access := [.read]
      implicitWrites := [returnAddress]
      groups := .ofList [.call] }
  | .ret =>
    { mnemonic := "ret", operation := .ret
      access := [.read]
      groups := .ofList [.ret] }
  | .eret =>
    { mnemonic := "eret", operation := .ret
      groups := .ofList [.ret, .privilege] }
  | .svc =>
    { mnemonic := "svc", operation := .syscall
      access := [.read]
      groups := .ofList [.interrupt] }
  | .hvc =>
    { mnemonic := "hvc", operation := .syscall
      access := [.read]
      groups := .ofList [.interrupt, .privilege] }
  | .smc =>
    { mnemonic := "smc", operation := .syscall
      access := [.read]
      groups := .ofList [.interrupt, .privilege] }
  | .brk =>
    { mnemonic := "brk", operation := .interrupt
      access := [.read]
      groups := .ofList [.interrupt] }
  | .hlt =>
    { mnemonic := "hlt", operation := .halt
      access := [.read]
      groups := .ofList [.interrupt] }
  | .hint =>
    { mnemonic := "hint", operation := .nop
      access := [.read] }
  | .mrs => unary "mrs" .systemAccess
  | .msr => unary "msr" .systemAccess
  | .strb => store "strb"
  | .ldrb => unary "ldrb" .load
  | .strh => store "strh"
  | .ldrh => unary "ldrh" .load
  | .str => store "str"
  | .ldr => unary "ldr" .load
  | .ldrsw => unary "ldrsw" .load
  | .stp =>
    { mnemonic := "stp", operation := .store
      access := [.read, .read, .write] }
  | .ldp =>
    { mnemonic := "ldp", operation := .load
      access := [.write, .write, .read] }
  | .ldxr => unary "ldxr" .load
  | .ldaxr => unary "ldaxr" .load
  | .ldar => unary "ldar" .load
  | .stxr =>
    { mnemonic := "stxr", operation := .store
      access := [.write, .read, .write] }
  | .stlxr =>
    { mnemonic := "stlxr", operation := .store
      access := [.write, .read, .write] }
  | .stlr => store "stlr"
  | .ld1 =>
    { mnemonic := "ld1", operation := .load
      access := [.write, .read]
      groups := .ofList [.vector] }
  | .st1 =>
    { mnemonic := "st1", operation := .store
      access := [.read, .write]
      groups := .ofList [.vector] }
  | .andRegister => binary "and" .and
  | .bicRegister => binary "bic" .and
  | .orrRegister => binary "orr" .or
  | .ornRegister => binary "orn" .or
  | .eorRegister => binary "eor" .xor
  | .eonRegister => binary "eon" .xor
  | .andsRegister => settingFlags (binary "ands" .and)
  | .bicsRegister => settingFlags (binary "bics" .and)
  | .addRegister => binary "add" .add
  | .addsRegister => settingFlags (binary "adds" .add)
  | .subRegister => binary "sub" .sub
  | .subsRegister => settingFlags (binary "subs" .sub)
  | .csel => testingFlags (ternary "csel" .select)
  | .csinc => testingFlags (ternary "csinc" .select)
  | .csinv => testingFlags (ternary "csinv" .select)
  | .csneg => testingFlags (ternary "csneg" .select)
  | .madd => ternary "madd" .mul
  | .msub => ternary "msub" .mul
  | .udiv => binary "udiv" .div
  | .sdiv => binary "sdiv" .div
  | .lslv => binary "lslv" .shiftLeft
  | .lsrv => binary "lsrv" .shiftRight
  | .asrv => binary "asrv" .shiftRightArithmetic
  | .rorv => binary "rorv" .rotateRight
  | .fmovImmediate => float (unary "fmov" .move)
  | .fadd => float (binary "fadd" .add)
  | .fsub => float (binary "fsub" .sub)
  | .fmul => float (binary "fmul" .mul)
  | .fdiv => float (binary "fdiv" .div)
  | .movStackPointer => unary "mov" .move
  | .cmpImmediate => comparison "cmp" .compare 3
  | .cmnImmediate => comparison "cmn" .compare 3
  | .tstImmediate => comparison "tst" .test 2
  | .movLogical => unary "mov" .move
  | .movWide => unary "mov" .move
  | .movInverted => unary "mov" .move
  | .sxtb => unary "sxtb" .bitField
  | .sxth => unary "sxth" .bitField
  | .sxtw => unary "sxtw" .bitField
  | .uxtb => unary "uxtb" .bitField
  | .uxth => unary "uxth" .bitField
  | .lslImmediate => binary "lsl" .shiftLeft
  | .lsrImmediate => binary "lsr" .shiftRight
  | .asrImmediate => binary "asr" .shiftRightArithmetic
  | .rorImmediate => binary "ror" .rotateRight
  | .sbfiz => ternary "sbfiz" .bitField
  | .sbfx => ternary "sbfx" .bitField
  | .ubfiz => ternary "ubfiz" .bitField
  | .ubfx => ternary "ubfx" .bitField
  | .bfi =>
    { mnemonic := "bfi", operation := .bitField
      access := [.readWrite, .read, .read, .read] }
  | .bfxil =>
    { mnemonic := "bfxil", operation := .bitField
      access := [.readWrite, .read, .read, .read] }
  | .retLink =>
    { mnemonic := "ret", operation := .ret
      implicitReads := [returnAddress]
      groups := .ofList [.ret] }
  | .nop => bare "nop" .nop
  | .yield => bare "yield" .nop
  | .wfe => bare "wfe" .nop
  | .wfi => bare "wfi" .nop
  | .sev => bare "sev" .nop
  | .sevl => bare "sevl" .nop
  | .movRegister => unary "mov" .move
  | .mvn => unary "mvn" .not
  | .tstRegister => comparison "tst" .test 2
  | .cmpRegister => comparison "cmp" .compare 2
  | .cmnRegister => comparison "cmn" .compare 2
  | .neg => unary "neg" .neg
  | .negs => settingFlags (unary "negs" .neg)
  | .cset => testingFlags (unary "cset" .select)
  | .csetm => testingFlags (unary "csetm" .select)
  | .cinc => testingFlags (binary "cinc" .select)
  | .cinv => testingFlags (binary "cinv" .select)
  | .cneg => testingFlags (binary "cneg" .select)
  | .mul => binary "mul" .mul
  | .mneg => binary "mneg" .mul
  | .lslRegister => binary "lsl" .shiftLeft
  | .lsrRegister => binary "lsr" .shiftRight
  | .asrRegister => binary "asr" .shiftRightArithmetic
  | .rorRegister => binary "ror" .rotateRight

end Opcode

end MachineCode.Arm64
