import MachineCode.Bits
import MachineCode.Text.Hex

/-!
# Optional extensions

Parts of an instruction set that a processor may lack. A set of extensions is
a 32-bit mask with one bit for each of them; further bits may be set, and name
nothing.

The text of a set lists names joined by `|`. Bits without a name are written
as one hexadecimal item. Blanks around items do not matter, and an empty text
is the empty set.
-/

namespace MachineCode

attribute [local instance (2000)] instPowNat

/-- An optional part of an instruction set. -/
inductive Feature where
  | arm64Float
  | arm64Half
  | arm64Vector
  | riscVMultiply
  | riscVFloat
  | riscVDouble
  | riscVCompressed
  | riscVCsr
deriving DecidableEq, Repr

namespace Feature

/-- All extensions, in the order of their bits. -/
def all : List Feature :=
  [.arm64Float, .arm64Half, .arm64Vector, .riscVMultiply, .riscVFloat,
    .riscVDouble, .riscVCompressed, .riscVCsr]

/-- The bit that stands for the extension. -/
def position : Feature → Nat
  | .arm64Float => 0
  | .arm64Half => 1
  | .arm64Vector => 2
  | .riscVMultiply => 8
  | .riscVFloat => 9
  | .riscVDouble => 10
  | .riscVCompressed => 11
  | .riscVCsr => 12

/-- The name of the extension. -/
def name : Feature → String
  | .arm64Float => "ARM64_FP"
  | .arm64Half => "ARM64_FP16"
  | .arm64Vector => "ARM64_NEON"
  | .riscVMultiply => "RISCV_M"
  | .riscVFloat => "RISCV_F"
  | .riscVDouble => "RISCV_D"
  | .riscVCompressed => "RISCV_C"
  | .riscVCsr => "RISCV_ZICSR"

/-- The extension with a given name. -/
def ofName? (text : String) : Option Feature :=
  all.find? fun feature => feature.name = text

end Feature

/-- A set of extensions, as a bit mask. -/
structure Features where
  bits : Nat
deriving DecidableEq, Repr

/-- Why a text is no set of extensions. -/
inductive FeatureError where
  | emptyItem
  | invalidHex
  | unknownName
deriving DecidableEq, Repr

/-- The wording of a feature error. -/
def FeatureError.message : FeatureError → String
  | .emptyItem => "encountered empty flag"
  | .invalidHex => "invalid hex flag"
  | .unknownName => "unrecognized named flag"

namespace Features

/-- No extension. -/
def empty : Features :=
  ⟨0⟩

/-- Whether an extension is in the set. -/
def has (features : Features) (feature : Feature) : Bool :=
  features.bits.testBit feature.position

/-- Whether every bit of `others` is set. -/
def containsAll (features others : Features) : Bool :=
  features.bits &&& others.bits = others.bits

/-- The bits of both sets. -/
def union (left right : Features) : Features :=
  ⟨left.bits ||| right.bits⟩

/-- The set of one extension. -/
def singleton (feature : Feature) : Features :=
  ⟨2 ^ feature.position⟩

/-- Every extension there is. -/
def all : Features :=
  Feature.all.foldl (fun set feature => set.union (singleton feature)) empty

/-- The characters that count as blank around an item. -/
def isBlank (character : Char) : Bool :=
  let code := character.toNat
  (0x9 ≤ code && code ≤ 0xd) || code = 0x20 || code = 0x85 || code = 0xa0 ||
    code = 0x1680 || (0x2000 ≤ code && code ≤ 0x200a) || code = 0x2028 ||
    code = 0x2029 || code = 0x202f || code = 0x205f || code = 0x3000

/-- The characters without the blanks at both ends. -/
def trim (characters : List Char) : List Char :=
  ((characters.dropWhile isBlank).reverse.dropWhile isBlank).reverse

/-- The value of a hexadecimal digit of either case. -/
def hexDigit? (character : Char) : Option Nat :=
  if '0' ≤ character ∧ character ≤ '9' then
    some (character.toNat - '0'.toNat)
  else if 'a' ≤ character ∧ character ≤ 'f' then
    some (character.toNat - 'a'.toNat + 10)
  else if 'A' ≤ character ∧ character ≤ 'F' then
    some (character.toNat - 'A'.toNat + 10)
  else
    none

/-- Add hexadecimal digits to a 32-bit number that is read from the left. -/
def readHexFrom? (value : Nat) : List Char → Option Nat
  | [] => some value
  | character :: rest =>
    match hexDigit? character with
    | none => none
    | some digit =>
      if 16 * value + digit < 2 ^ (32 : Nat) then
        readHexFrom? (16 * value + digit) rest
      else
        none

/-- A 32-bit hexadecimal number, which a plus sign may open. -/
def readHex? : List Char → Option Nat
  | [] => none
  | '+' :: [] => none
  | '+' :: digits => readHexFrom? 0 digits
  | digits => readHexFrom? 0 digits

/-- Read one item, which has no blanks around it. -/
def parseItem (item : List Char) : Except FeatureError Features :=
  match item with
  | [] => .error .emptyItem
  | '0' :: 'x' :: digits =>
    match readHex? digits with
    | some bits => .ok ⟨bits⟩
    | none => .error .invalidHex
  | name =>
    match Feature.ofName? (String.ofList name) with
    | some feature => .ok (singleton feature)
    | none => .error .unknownName

/-- The parts of a text between the bars. -/
def splitAtBars : List Char → List (List Char)
  | [] => [[]]
  | character :: rest =>
    match splitAtBars rest with
    | [] => [[character]]
    | part :: parts =>
      if character = '|' then
        [] :: part :: parts
      else
        (character :: part) :: parts

/-- The union of the items; the first faulty item decides the error. -/
def parseItems : List (List Char) → Features → Except FeatureError Features
  | [], collected => .ok collected
  | item :: rest, collected =>
    match parseItem (trim item) with
    | .error error => .error error
    | .ok features => parseItems rest (collected.union features)

/-- Read the text of a set. -/
def parse (text : String) : Except FeatureError Features :=
  match trim text.toList with
  | [] => .ok empty
  | characters => parseItems (splitAtBars characters) empty

/-- The named members, in the order of their bits. -/
def toList (features : Features) : List Feature :=
  Feature.all.filter features.has

/-- The bits that name nothing. -/
def unnamedBits (features : Features) : Nat :=
  (features.bits ^^^ all.bits) &&& features.bits

/-- The canonical text of a set. -/
def text (features : Features) : String :=
  let names := features.toList.map Feature.name
  let rest :=
    if features.unnamedBits = 0 then []
    else [Text.hex features.unnamedBits]
  " | ".intercalate (names ++ rest)

end Features

end MachineCode
