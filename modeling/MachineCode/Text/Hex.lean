/-!
# Hexadecimal text

Numbers are written in lower-case hexadecimal after `0x`, without leading
zeros unless a least number of digits is asked for.
-/

namespace MachineCode.Text

/-- The lower-case hexadecimal digits of a number. -/
def hexDigits (value : Nat) : String :=
  String.ofList (Nat.toDigits 16 value)

/-- The digits, filled up with zeros on the left. -/
def paddedHexDigits (width value : Nat) : String :=
  let digits := Nat.toDigits 16 value
  String.ofList (List.replicate (width - digits.length) '0' ++ digits)

/-- A number as `0x…`. -/
def hex (value : Nat) : String :=
  "0x" ++ hexDigits value

/-- A number as `0x…` with at least `width` digits. -/
def paddedHex (width value : Nat) : String :=
  "0x" ++ paddedHexDigits width value

/-- A byte as two digits. -/
def byteDigits (byte : UInt8) : String :=
  paddedHexDigits 2 byte.toNat

/--
An integer as `-0x…` or `0x…`, by its sign and its size.
-/
def signedHex (value : Int) : String :=
  if value < 0 then
    "-" ++ hex value.natAbs
  else
    hex value.natAbs

end MachineCode.Text
