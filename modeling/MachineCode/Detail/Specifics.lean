import MachineCode.Condition
import MachineCode.Group
import MachineCode.Register

/-!
# What one architecture adds

Facts about an instruction that only its own architecture has: the condition
and side effects of an Arm64 instruction, the rounding mode of a RISC-V one,
and the functional unit, predicate and paths of a C64x one.
-/

namespace MachineCode

/-- Facts about an Arm64 instruction. -/
structure Arm64Specifics where
  /-- The condition that the instruction tests. -/
  condition : Option Condition := none
  /-- Whether the flags are written. -/
  updatesFlags : Bool := false
  /-- Whether a base register is updated. -/
  writesBase : Bool := false
deriving DecidableEq, Repr

/-- How a floating-point result is rounded. -/
inductive RoundingMode where
  | nearestEven
  | towardZero
  | down
  | up
  | nearestMaxMagnitude
  /-- The mode is taken from a control register. -/
  | dynamic
deriving DecidableEq, Repr

namespace RoundingMode

/-- The mode of a three-bit field; two patterns are reserved. -/
def ofBits? : Nat → Option RoundingMode
  | 0 => some .nearestEven
  | 1 => some .towardZero
  | 2 => some .down
  | 3 => some .up
  | 4 => some .nearestMaxMagnitude
  | 7 => some .dynamic
  | _ => none

/-- The name of the mode. -/
def name : RoundingMode → String
  | .nearestEven => "rne"
  | .towardZero => "rtz"
  | .down => "rdn"
  | .up => "rup"
  | .nearestMaxMagnitude => "rmm"
  | .dynamic => "dyn"

end RoundingMode

/-- The functional units of a C64x core. -/
inductive FunctionalUnit where
  | d
  | l
  | m
  | s
  /-- The instruction occupies no unit. -/
  | none
deriving DecidableEq, Repr

namespace FunctionalUnit

/-- The letter of the unit. -/
def name : FunctionalUnit → String
  | .d => "D"
  | .l => "L"
  | .m => "M"
  | .s => "S"
  | .none => ""

/-- The group of the instructions that the unit runs. -/
def group : FunctionalUnit → Group
  | .d => .unitD
  | .l => .unitL
  | .m => .unitM
  | .s => .unitS
  | .none => .unitNone

end FunctionalUnit

/-- The register that a C64x instruction is predicated on. -/
structure Predicate where
  register : Register
  /-- Whether the instruction runs when the register is zero. -/
  whenZero : Bool
deriving DecidableEq, Repr

/-- Facts about a C64x instruction. -/
structure C64xSpecifics where
  predicate : Option Predicate := none
  unit : FunctionalUnit := .none
  /-- The side of the core, 1 or 2, or 0 when there is none. -/
  side : Nat := 0
  /-- The data path of a memory access. -/
  dataPath : Option Nat := none
  /-- Whether an operand is fetched from the opposite side. -/
  crossPath : Bool := false
  /-- Whether the next instruction runs at the same time. -/
  parallel : Bool := false
deriving DecidableEq, Repr

/-- What one architecture adds to the description of an instruction. -/
inductive Specifics where
  | none
  | arm64 (facts : Arm64Specifics)
  | riscV (rounding : Option RoundingMode)
  | c64x (facts : C64xSpecifics)
deriving DecidableEq, Repr

namespace Specifics

/-- The condition under which the instruction takes effect. -/
def condition? : Specifics → Option Condition
  | .arm64 facts => facts.condition
  | .c64x facts =>
    facts.predicate.map fun predicate =>
      if predicate.whenZero then .equal else .notEqual
  | .none | .riscV _ => Option.none

/-- The registers that are read to decide whether to run at all. -/
def implicitReads : Specifics → List Register
  | .c64x facts => (facts.predicate.map Predicate.register).toList
  | .none | .arm64 _ | .riscV _ => []

end Specifics

end MachineCode
