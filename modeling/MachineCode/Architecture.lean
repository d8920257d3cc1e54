/-!
# Architectures

The processor families whose machine code is read, and the facts about each
that hold for every one of its instructions: the order in which the bytes of
an instruction word are stored, the size of an address, and the name.

`Architecture.parse` accepts the usual spellings of a family in any mixture
of ASCII letter case, and nothing else.
-/

namespace MachineCode

/-- The order in which the bytes of a word are stored. -/
inductive ByteOrder where
  /-- The first byte is the least significant one. -/
  | little
  /-- The first byte is the most significant one. -/
  | big
deriving DecidableEq, Repr

/-- A processor family. -/
inductive Architecture where
  | arm64
  | riscV64
  | riscV32
  | c64x
  /-- A family that is known by a number only. -/
  | unknown (number : Nat)
deriving DecidableEq, Repr

/-- A name that no architecture or no instruction group carries. -/
inductive NameError where
  | architecture (text : String)
  | group (text : String)
deriving DecidableEq, Repr

/-- The wording of a failed look-up. -/
def NameError.message : NameError → String
  | .architecture text => "unknown architecture: " ++ text
  | .group text => "unknown instruction group: " ++ text

namespace Architecture

/-- The canonical name. -/
def name : Architecture → String
  | .arm64 => "arm64"
  | .riscV64 => "riscv64"
  | .riscV32 => "riscv32"
  | .c64x => "tms320c64x"
  | .unknown _ => "unknown"

/-- The size of an address in bytes; an unknown family counts as wide. -/
def pointerSize : Architecture → Nat
  | .arm64 | .riscV64 | .unknown _ => 8
  | .riscV32 | .c64x => 4

/-- Whether the family is known to have 64-bit addresses. -/
def is64Bit : Architecture → Bool
  | .arm64 | .riscV64 => true
  | .riscV32 | .c64x | .unknown _ => false

/-- The byte order of instruction words. -/
def byteOrder : Architecture → ByteOrder
  | .c64x => .big
  | .arm64 | .riscV64 | .riscV32 | .unknown _ => .little

/-- The family that a lower-case spelling names. -/
def ofSpelling? : String → Option Architecture
  | "arm64" | "aarch64" => some .arm64
  | "riscv64" | "rv64" => some .riscV64
  | "riscv32" | "rv32" => some .riscV32
  | "tms320c64x" | "c64x" => some .c64x
  | _ => none

/-- Read the name of a family. Only ASCII letters lose their case. -/
def parse (text : String) : Except NameError Architecture :=
  match ofSpelling? (text.map Char.toLower) with
  | some architecture => .ok architecture
  | none => .error (.architecture text)

end Architecture

end MachineCode
