import MachineCode.Alias
import MachineCode.RiscV.ControlRegister
import MachineCode.RiscV.Opcode
import MachineCode.RiscV.Register

/-!
# RISC-V pseudo-instructions

The assembly language has names for common forms of an instruction: an
operand that is the zero register, the link register or a fixed constant is
left out. The rules of an opcode are tried in the order given here.
-/

namespace MachineCode.RiscV

/-- Whether the operand is the control register of a number. -/
def isControl (operand : Operand) (number : Nat) : Bool :=
  match operand with
  | .systemRegister register => register.encoding = number
  | _ => false

/-- Keep some of three operands if a test holds. -/
def keepOfThree
    (test : Operand → Operand → Operand → Bool)
    (kept : Operand → Operand → Operand → List Operand) :
    List Operand → Option (List Operand)
  | [first, second, third] =>
    if test first second third then some (kept first second third) else none
  | _ => none

/-- Nothing, of an addition of zero to and from the zero register. -/
def nothing : List Operand → Option (List Operand) :=
  keepOfThree
    (fun first second third =>
      first.isRegister zeroRegister && second.isRegister zeroRegister &&
        third.isConstant 0)
    (fun _ _ _ => [])

/-- The first two operands, if the third is a constant. -/
def withoutConstant (value : Int) : List Operand → Option (List Operand) :=
  keepOfThree
    (fun _ _ third => third.isConstant value)
    (fun first second _ => [first, second])

/-- The last two operands, if the first is the zero register. -/
def withoutZeroFirst : List Operand → Option (List Operand) :=
  keepOfThree
    (fun first _ _ => first.isRegister zeroRegister)
    (fun _ second third => [second, third])

/-- The outer operands, if the second is the zero register. -/
def withoutZeroSecond : List Operand → Option (List Operand) :=
  keepOfThree
    (fun _ second _ => second.isRegister zeroRegister)
    (fun first _ third => [first, third])

/-- The first two operands, if the third is the zero register. -/
def withoutZeroThird : List Operand → Option (List Operand) :=
  keepOfThree
    (fun _ _ third => third.isRegister zeroRegister)
    (fun first second _ => [first, second])

/-- The target of a jump that links a given register. -/
def linking (number : Nat) : List Operand → Option (List Operand)
  | [link, target] =>
    if link.isRegister number then some [target] else none
  | _ => none

/-- Nothing, of a jump to the link register that links nothing. -/
def returning : List Operand → Option (List Operand) :=
  keepOfThree
    (fun first second third =>
      first.isRegister zeroRegister && second.isRegister linkRegister &&
        third.isConstant 0)
    (fun _ _ _ => [])

/-- The target of a jump to a register that links a given register. -/
def linkingRegister (number : Nat) : List Operand → Option (List Operand) :=
  keepOfThree
    (fun first _ third => first.isRegister number && third.isConstant 0)
    (fun _ second _ => [second])

/-- The destination of a read of a counter. -/
def readingCounter (number : Nat) : List Operand → Option (List Operand) :=
  keepOfThree
    (fun _ second third =>
      isControl second number && third.isRegister zeroRegister)
    (fun first _ _ => [first])

/-- Nothing, of a fence that orders everything. -/
def orderingAll : List Operand → Option (List Operand)
  | [before, after] =>
    if before.isConstant 15 && after.isConstant 15 then some [] else none
  | _ => none

/-- A pseudo-instruction for forms of an opcode. -/
def pseudo
    (opcode preferred : Opcode)
    (reduce : List Operand → Option (List Operand)) :
    Alias :=
  ⟨opcode.id, preferred.id, reduce⟩

/-- The pseudo-instructions, in the order in which they are tried. -/
def pseudos : List Alias :=
  [pseudo .addi .nop nothing,
    pseudo .addi .li withoutZeroSecond,
    pseudo .addi .mv (withoutConstant 0),
    pseudo .xori .not (withoutConstant (-1)),
    pseudo .sub .neg withoutZeroSecond,
    pseudo .subw .negw withoutZeroSecond,
    pseudo .addiw .sextW (withoutConstant 0),
    pseudo .sltiu .seqz (withoutConstant 1),
    pseudo .sltu .snez withoutZeroSecond,
    pseudo .slt .sltz withoutZeroThird,
    pseudo .slt .sgtz withoutZeroSecond,
    pseudo .beq .beqz withoutZeroSecond,
    pseudo .bne .bnez withoutZeroSecond,
    pseudo .bge .blez withoutZeroFirst,
    pseudo .bge .bgez withoutZeroSecond,
    pseudo .blt .bltz withoutZeroSecond,
    pseudo .blt .bgtz withoutZeroFirst,
    pseudo .jal .j (linking zeroRegister),
    pseudo .jal .jalLink (linking linkRegister),
    pseudo .jalr .ret returning,
    pseudo .jalr .jr (linkingRegister zeroRegister),
    pseudo .jalr .jalrLink (linkingRegister linkRegister),
    pseudo .csrrs .rdcycle (readingCounter cycleCounter),
    pseudo .csrrs .rdtime (readingCounter timeCounter),
    pseudo .csrrs .rdinstret (readingCounter retiredCounter),
    pseudo .csrrs .csrr withoutZeroThird,
    pseudo .csrrw .csrw withoutZeroFirst,
    pseudo .csrrs .csrs withoutZeroFirst,
    pseudo .csrrc .csrc withoutZeroFirst,
    pseudo .csrrwi .csrwi withoutZeroFirst,
    pseudo .csrrsi .csrsi withoutZeroFirst,
    pseudo .csrrci .csrci withoutZeroFirst,
    pseudo .fence .fenceAll orderingAll]

end MachineCode.RiscV
