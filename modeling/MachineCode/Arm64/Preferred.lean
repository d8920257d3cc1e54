import MachineCode.Alias
import MachineCode.Arm64.LogicalImmediate
import MachineCode.Arm64.Opcode

/-!
# Preferred forms of Arm64 instructions

The assembly language prefers shorter names for many forms: a comparison is a
subtraction whose result is dropped, a shift is a bitfield move with matching
constants, and a move is any instruction that only copies. The rules of an
opcode are tried in the order given here.
-/

namespace MachineCode.Arm64

attribute [local instance (2000)] instPowNat

/-- Whether the operand is the zero register. -/
def isZero (operand : Operand) : Bool :=
  operand.isRegister zeroRegister

/-- Whether the operand is the stack pointer. -/
def isStackPointer (operand : Operand) : Bool :=
  operand.isRegister stackPointer

/-- A constant of six bits, such as a shift amount. -/
def smallConstant (value : Nat) : Operand :=
  .unsigned value 6

/-! ## Sums, comparisons and copies -/

/-- Source and destination of an addition of zero to the stack pointer. -/
def stackMove : List Operand → Option (List Operand)
  | [destination, source, constant] =>
    if constant.isConstant 0 &&
        (isStackPointer destination || isStackPointer source) then
      some [destination, source]
    else
      none
  | _ => none

/-- The sources, if the result is dropped. -/
def withoutDestination : List Operand → Option (List Operand)
  | destination :: sources =>
    if isZero destination then some sources else none
  | [] => none

/-- The operands but the first source, if that is zero. -/
def withoutFirstSource : List Operand → Option (List Operand)
  | destination :: first :: rest =>
    if isZero first then some (destination :: rest) else none
  | _ => none

/-- Source and destination, if the first source is zero. -/
def registerMove : List Operand → Option (List Operand)
  | [destination, first, .register source] =>
    if isZero first then some [destination, .register source] else none
  | _ => none

/-- The factors, if nothing is added to the product. -/
def withoutAddend : List Operand → Option (List Operand)
  | [destination, first, second, addend] =>
    if isZero addend then some [destination, first, second] else none
  | _ => none

/-! ## Moves of constants -/

/-- Destination and pattern, unless a wide move builds the pattern too. -/
def logicalMove : List Operand → Option (List Operand)
  | [destination, first, .immediate pattern] =>
    if isZero first && !isWideMove pattern.size pattern.toUnsigned64 then
      some [destination, .immediate pattern]
    else
      none
  | _ => none

/-- Destination, constant and place of a wide move. -/
def wideMoveParts? : List Operand → Option (Operand × Nat × Nat)
  | [destination, .immediate constant] =>
    some (destination, constant.toUnsigned64, 0)
  | [destination, .immediate constant, .shift shift] =>
    some (destination, constant.toUnsigned64, shift.amount)
  | _ => none

/-- The constant that a wide move builds; zero is built at place zero. -/
def wideMove (operands : List Operand) : Option (List Operand) :=
  match wideMoveParts? operands with
  | none => none
  | some (destination, constant, place) =>
    if constant = 0 ∧ place ≠ 0 then
      none
    else
      some [destination, .unsigned (constant * 2 ^ place % 2 ^ (64 : Nat)) 64]

/--
The complement of the constant that a wide move builds. The complement of
sixteen ones in a narrow register is left to the move without complement.
-/
def invertedMove (operands : List Operand) : Option (List Operand) :=
  match wideMoveParts? operands with
  | none => none
  | some (destination, constant, place) =>
    match destination.register? with
    | none => none
    | some register =>
      if constant = 0 ∧ place ≠ 0 then
        none
      else if register.size = 32 ∧ constant = 0xffff then
        none
      else
        let inverted : Int := -1 - constant * 2 ^ place
        let value :=
          if register.size = 32 then Int.bmod inverted (2 ^ (32 : Nat))
          else wrapSigned64 inverted
        some [destination, .signed value (register.size % 2 ^ (8 : Nat))]

/-! ## Bitfield moves -/

/-- The operands of a bitfield move. -/
structure Bitfield where
  destination : Operand
  source : Register
  /-- How far the source is rotated to the right. -/
  immr : Nat
  /-- The highest bit of the field. -/
  imms : Nat

namespace Bitfield

/-- The bitfield move with the given operands. -/
def ofOperands? : List Operand → Option Bitfield
  | [destination, .register source, .immediate immr, .immediate imms] =>
    some ⟨destination, source, immr.toUnsigned64, imms.toUnsigned64⟩
  | _ => none

/-- The operands of a form with some constants, if it applies. -/
def withConstants
    (condition : Bitfield → Bool)
    (constants : Bitfield → List Nat)
    (operands : List Operand) :
    Option (List Operand) :=
  match ofOperands? operands with
  | none => none
  | some field =>
    if condition field then
      some
        (field.destination :: .register field.source ::
          (constants field).map smallConstant)
    else
      none

/-- The extension of the low bits up to `imms`, of a narrow source. -/
def extension
    (condition : Register → Bool)
    (imms : Nat)
    (operands : List Operand) :
    Option (List Operand) :=
  match ofOperands? operands with
  | none => none
  | some field =>
    if condition field.source && field.immr = 0 && field.imms = imms then
      some
        [field.destination, .register { field.source with size := 32 }]
    else
      none

/-- A shift to the left moves the low bits up to the highest place. -/
def shiftLeft : List Operand → Option (List Operand) :=
  withConstants
    (fun field =>
      field.imms ≠ field.source.size - 1 && field.imms + 1 = field.immr)
    (fun field => [field.source.size - 1 - field.imms])

/-- A shift to the right moves the high bits down to the lowest place. -/
def shiftRight : List Operand → Option (List Operand) :=
  withConstants
    (fun field => field.imms = field.source.size - 1)
    (fun field => [field.immr])

/-- An insertion moves the low bits to a higher place. -/
def insertion : List Operand → Option (List Operand) :=
  withConstants
    (fun field => field.imms < field.immr)
    (fun field => [field.source.size - field.immr, field.imms + 1])

/-- An extraction moves a field to the lowest place. -/
def extraction : List Operand → Option (List Operand) :=
  withConstants
    (fun field => field.immr ≤ field.imms)
    (fun field => [field.immr, field.imms - field.immr + 1])

end Bitfield

/-- A rotation is an extraction from a register beside itself. -/
def rotation : List Operand → Option (List Operand)
  | [destination, high, low, distance] =>
    if high.agrees low then some [destination, high, distance] else none
  | _ => none

/-! ## Conditional selections -/

/-- Whether a condition has an opposite that can be written. -/
def isInvertible (condition : Condition) : Bool :=
  condition ≠ .always && condition ≠ .never

/-- A choice between zero and a constant. -/
def conditionalSet : List Operand → Option (List Operand)
  | [destination, first, second, .condition condition] =>
    if isZero first && isZero second && isInvertible condition then
      some [destination, .condition condition.inverse]
    else
      none
  | _ => none

/-- A choice between a register and a function of it. -/
def conditionalChange : List Operand → Option (List Operand)
  | [destination, first, second, .condition condition] =>
    if first.agrees second && !isZero first && isInvertible condition then
      some [destination, first, .condition condition.inverse]
    else
      none
  | _ => none

/-! ## Branches and hints -/

/-- Nothing, of a return to the link register. -/
def linkReturn : List Operand → Option (List Operand)
  | [target] => if target.isRegister linkRegister then some [] else none
  | _ => none

/-- Nothing, of the hint with a code. -/
def hintOf (code : Int) : List Operand → Option (List Operand)
  | [operand] => if operand.isConstant code then some [] else none
  | _ => none

/-! ## The rules -/

/-- A preferred form of one opcode. -/
def preferred
    (opcode shown : Opcode)
    (reduce : List Operand → Option (List Operand)) :
    Alias :=
  ⟨opcode.id, shown.id, reduce⟩

/-- The preferred forms, in the order in which they are tried. -/
def preferredForms : List Alias :=
  [preferred .addImmediate .movStackPointer stackMove,
    preferred .addsImmediate .cmnImmediate withoutDestination,
    preferred .subsImmediate .cmpImmediate withoutDestination,
    preferred .andsImmediate .tstImmediate withoutDestination,
    preferred .orrImmediate .movLogical logicalMove,
    preferred .movz .movWide wideMove,
    preferred .movn .movInverted invertedMove,
    preferred .sbfm .sxtb (Bitfield.extension (fun _ => true) 7),
    preferred .sbfm .sxth (Bitfield.extension (fun _ => true) 15),
    preferred .sbfm .sxtw (Bitfield.extension (·.size = 64) 31),
    preferred .sbfm .asrImmediate Bitfield.shiftRight,
    preferred .sbfm .sbfiz Bitfield.insertion,
    preferred .sbfm .sbfx Bitfield.extraction,
    preferred .ubfm .uxtb (Bitfield.extension (·.size = 32) 7),
    preferred .ubfm .uxth (Bitfield.extension (·.size = 32) 15),
    preferred .ubfm .lslImmediate Bitfield.shiftLeft,
    preferred .ubfm .lsrImmediate Bitfield.shiftRight,
    preferred .ubfm .ubfiz Bitfield.insertion,
    preferred .ubfm .ubfx Bitfield.extraction,
    preferred .bfm .bfi Bitfield.insertion,
    preferred .bfm .bfxil Bitfield.extraction,
    preferred .extr .rorImmediate rotation,
    preferred .ret .retLink linkReturn,
    preferred .hint .nop (hintOf 0),
    preferred .hint .yield (hintOf 1),
    preferred .hint .wfe (hintOf 2),
    preferred .hint .wfi (hintOf 3),
    preferred .hint .sev (hintOf 4),
    preferred .hint .sevl (hintOf 5),
    preferred .orrRegister .movRegister registerMove,
    preferred .ornRegister .mvn withoutFirstSource,
    preferred .andsRegister .tstRegister withoutDestination,
    preferred .addsRegister .cmnRegister withoutDestination,
    preferred .subsRegister .cmpRegister withoutDestination,
    preferred .subRegister .neg withoutFirstSource,
    preferred .subsRegister .negs withoutFirstSource,
    preferred .csinc .cset conditionalSet,
    preferred .csinc .cinc conditionalChange,
    preferred .csinv .csetm conditionalSet,
    preferred .csinv .cinv conditionalChange,
    preferred .csneg .cneg conditionalChange,
    preferred .madd .mul withoutAddend,
    preferred .msub .mneg withoutAddend,
    preferred .lslv .lslRegister some,
    preferred .lsrv .lsrRegister some,
    preferred .asrv .asrRegister some,
    preferred .rorv .rorRegister some]

end MachineCode.Arm64
