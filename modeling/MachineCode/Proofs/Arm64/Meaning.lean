import MachineCode.Arm64.Preferred
import Mathlib.Algebra.Group.Int.Defs
import Mathlib.Algebra.Group.Nat.Defs

/-!
# What the preferred forms stand for

The manual defines each preferred form as a spelling of one instruction: a
comparison is a subtraction into the zero register, a shift is a bitfield move
whose constants follow from the amount. `expand?` gives back the instruction
that a preferred form is defined by.
-/

namespace MachineCode.Arm64

/-- The zero register that is as wide as a register. -/
def zeroBeside : Operand → Option Operand
  | .register register =>
    some (.register ⟨.arm64, .general, zeroRegister, register.size⟩)
  | _ => none

/-- What a preferred form is defined by. -/
structure Meaning where
  /-- The opcode of the instruction. -/
  base : Opcode
  /-- The operands of the instruction, from those that are written. -/
  restore : List Operand → Option (List Operand)

namespace Meaning

/-- A copy to or from the stack pointer adds zero. -/
def addingZero : List Operand → Option (List Operand)
  | [destination, source] => some [destination, source, .unsigned 0 12]
  | _ => none

/-- The result is dropped. -/
def intoZero : List Operand → Option (List Operand)
  | first :: rest => (zeroBeside first).map fun zero => zero :: first :: rest
  | [] => none

/-- The first source is zero. -/
def fromZero : List Operand → Option (List Operand)
  | destination :: rest =>
    (zeroBeside destination).map fun zero => destination :: zero :: rest
  | [] => none

/-- Zero is added to the product, or the product taken away from zero. -/
def withZero : List Operand → Option (List Operand)
  | [destination, first, second] =>
    (zeroBeside destination).map fun zero =>
      [destination, first, second, zero]
  | _ => none

/-- The sixteen bits that a constant consists of, and their place. -/
def wideParts (value : Nat) : List Operand :=
  let place := 16 * (Nat.log2 value / 16)
  .unsigned (value / 2 ^ place) 16 ::
    if place = 0 then [] else [.shift ⟨.lsl, place⟩]

/-- The constant is moved in one place. -/
def movingWide : List Operand → Option (List Operand)
  | [destination, .immediate constant] =>
    some (destination :: wideParts constant.toUnsigned64)
  | _ => none

/-- The complement of the constant is moved in one place. -/
def movingInverted : List Operand → Option (List Operand)
  | [.register destination, .immediate constant] =>
    some
      (.register destination ::
        wideParts
          (twosComplement (-1 - constant.value) destination.size))
  | _ => none

/-- The low bits up to `imms` are moved, of a source as wide as the result. -/
def extending (imms : Nat) : List Operand → Option (List Operand)
  | [.register destination, .register source] =>
    some
      [.register destination,
        .register { source with size := destination.size },
        smallConstant 0, smallConstant imms]
  | _ => none

/-- A bitfield move, whose constants follow from the width and an amount. -/
def shifting
    (constants : (size amount : Nat) → Nat × Nat) :
    List Operand → Option (List Operand)
  | [destination, .register source, .immediate amount] =>
    let (immr, imms) := constants source.size amount.toUnsigned64
    some
      [destination, .register source, smallConstant immr, smallConstant imms]
  | _ => none

/-- A bitfield move, whose constants follow from the lowest bit and a length. -/
def movingField
    (constants : (size lowest length : Nat) → Nat × Nat) :
    List Operand → Option (List Operand)
  | [destination, .register source, .immediate lowest,
      .immediate length] =>
    let (immr, imms) :=
      constants source.size lowest.toUnsigned64 length.toUnsigned64
    some
      [destination, .register source, smallConstant immr, smallConstant imms]
  | _ => none

/-- A shift to the left is a rotation to the right by what is missing. -/
def leftConstants (size amount : Nat) : Nat × Nat :=
  ((size - amount) % size, size - 1 - amount)

/-- A shift to the right moves all bits from the amount upwards. -/
def rightConstants (size amount : Nat) : Nat × Nat :=
  (amount, size - 1)

/-- An insertion rotates the low bits to their place. -/
def insertionConstants (size lowest length : Nat) : Nat × Nat :=
  ((size - lowest) % size, length - 1)

/-- An extraction names the lowest and the highest bit. -/
def extractionConstants (_ lowest length : Nat) : Nat × Nat :=
  (lowest, lowest + length - 1)

/-- A rotation takes both halves from one register. -/
def rotating : List Operand → Option (List Operand)
  | [destination, source, amount] =>
    some [destination, source, source, amount]
  | _ => none

/-- Zero is chosen, or a function of zero if the condition fails. -/
def choosingZero : List Operand → Option (List Operand)
  | [destination, .condition condition] =>
    (zeroBeside destination).map fun zero =>
      [destination, zero, zero, .condition condition.inverse]
  | _ => none

/-- A register is chosen, or a function of it if the condition fails. -/
def choosingTwice : List Operand → Option (List Operand)
  | [destination, source, .condition condition] =>
    some [destination, source, source, .condition condition.inverse]
  | _ => none

/-- The link register is meant. -/
def throughLink : List Operand → Option (List Operand)
  | [] => some [.register returnAddress]
  | _ => none

/-- The hint of a code is meant. -/
def hinting (code : Nat) : List Operand → Option (List Operand)
  | [] => some [.unsigned code 7]
  | _ => none

end Meaning

/-- The definition of a preferred form. -/
def Opcode.meaning? : Opcode → Option Meaning
  | .movStackPointer => some ⟨.addImmediate, Meaning.addingZero⟩
  | .cmpImmediate => some ⟨.subsImmediate, Meaning.intoZero⟩
  | .cmnImmediate => some ⟨.addsImmediate, Meaning.intoZero⟩
  | .tstImmediate => some ⟨.andsImmediate, Meaning.intoZero⟩
  | .movLogical => some ⟨.orrImmediate, Meaning.fromZero⟩
  | .movWide => some ⟨.movz, Meaning.movingWide⟩
  | .movInverted => some ⟨.movn, Meaning.movingInverted⟩
  | .sxtb => some ⟨.sbfm, Meaning.extending 7⟩
  | .sxth => some ⟨.sbfm, Meaning.extending 15⟩
  | .sxtw => some ⟨.sbfm, Meaning.extending 31⟩
  | .uxtb => some ⟨.ubfm, Meaning.extending 7⟩
  | .uxth => some ⟨.ubfm, Meaning.extending 15⟩
  | .lslImmediate => some ⟨.ubfm, Meaning.shifting Meaning.leftConstants⟩
  | .lsrImmediate => some ⟨.ubfm, Meaning.shifting Meaning.rightConstants⟩
  | .asrImmediate => some ⟨.sbfm, Meaning.shifting Meaning.rightConstants⟩
  | .rorImmediate => some ⟨.extr, Meaning.rotating⟩
  | .sbfiz => some ⟨.sbfm, Meaning.movingField Meaning.insertionConstants⟩
  | .sbfx => some ⟨.sbfm, Meaning.movingField Meaning.extractionConstants⟩
  | .ubfiz => some ⟨.ubfm, Meaning.movingField Meaning.insertionConstants⟩
  | .ubfx => some ⟨.ubfm, Meaning.movingField Meaning.extractionConstants⟩
  | .bfi => some ⟨.bfm, Meaning.movingField Meaning.insertionConstants⟩
  | .bfxil => some ⟨.bfm, Meaning.movingField Meaning.extractionConstants⟩
  | .retLink => some ⟨.ret, Meaning.throughLink⟩
  | .nop => some ⟨.hint, Meaning.hinting 0⟩
  | .yield => some ⟨.hint, Meaning.hinting 1⟩
  | .wfe => some ⟨.hint, Meaning.hinting 2⟩
  | .wfi => some ⟨.hint, Meaning.hinting 3⟩
  | .sev => some ⟨.hint, Meaning.hinting 4⟩
  | .sevl => some ⟨.hint, Meaning.hinting 5⟩
  | .movRegister => some ⟨.orrRegister, Meaning.fromZero⟩
  | .mvn => some ⟨.ornRegister, Meaning.fromZero⟩
  | .tstRegister => some ⟨.andsRegister, Meaning.intoZero⟩
  | .cmpRegister => some ⟨.subsRegister, Meaning.intoZero⟩
  | .cmnRegister => some ⟨.addsRegister, Meaning.intoZero⟩
  | .neg => some ⟨.subRegister, Meaning.fromZero⟩
  | .negs => some ⟨.subsRegister, Meaning.fromZero⟩
  | .cset => some ⟨.csinc, Meaning.choosingZero⟩
  | .csetm => some ⟨.csinv, Meaning.choosingZero⟩
  | .cinc => some ⟨.csinc, Meaning.choosingTwice⟩
  | .cinv => some ⟨.csinv, Meaning.choosingTwice⟩
  | .cneg => some ⟨.csneg, Meaning.choosingTwice⟩
  | .mul => some ⟨.madd, Meaning.withZero⟩
  | .mneg => some ⟨.msub, Meaning.withZero⟩
  | .lslRegister => some ⟨.lslv, some⟩
  | .lsrRegister => some ⟨.lsrv, some⟩
  | .asrRegister => some ⟨.asrv, some⟩
  | .rorRegister => some ⟨.rorv, some⟩
  | _ => none

/-- The instruction that a preferred form is defined by. -/
def expand? (form : Form) : Option Form := do
  let shown ← Opcode.ofId? form.opcode
  let meaning ← shown.meaning?
  let operands ← meaning.restore form.operands
  return ⟨meaning.base.id, operands⟩

end MachineCode.Arm64
