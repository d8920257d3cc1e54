import MachineCode.Feature

/-!
# Options

The choices a user makes: which extensions exist, whether detail records are
wanted, how bytes that do not decode are shown, and how immediates are
printed.
-/

namespace MachineCode

/-- The choices that decoding and printing depend on. -/
structure Options where
  /-- Whether every instruction carries a detail record. -/
  detail : Bool := false
  /-- Whether a sweep shows bytes that do not decode as data. -/
  skipData : Bool := false
  /-- The mnemonic of such data. -/
  dataMnemonic : String := ".byte"
  /-- Whether negative immediates are printed as unsigned numbers. -/
  unsignedImmediates : Bool := false
  features : Features := .all
deriving DecidableEq, Repr

end MachineCode
