import MachineCode.Register

/-!
# Register names

The assembly name of a register. Arm64 spells one storage in several ways,
by width in the general file and by width and class in the vector file. The
RISC-V names are those of the calling convention. On C64x the control
registers have names of their own, and some of the 32 slots are unassigned.

A number outside the layout of its family is spelled `unknown`.
-/

namespace MachineCode

namespace Register

/-- The spelling of a number that names nothing. -/
def unknownName : String :=
  "unknown"

/-- A letter followed by an index. -/
def indexed (letter : String) (index : Nat) : String :=
  letter ++ toString index

/-- The letter of an Arm64 vector-file register. -/
def arm64VectorLetter? (kind : RegisterClass) (size : Nat) : Option String :=
  if kind = .vector then
    some "v"
  else
    match size with
    | 8 => some "b"
    | 16 => some "h"
    | 32 => some "s"
    | 64 => some "d"
    | 128 => some "q"
    | _ => none

/-- The Arm64 name of register `id` at the given width. -/
def arm64Name (kind : RegisterClass) (id size : Nat) : String :=
  if id ≤ 30 then
    indexed (if size = 32 then "w" else "x") id
  else if id = 31 then
    if size = 32 then "wzr" else "xzr"
  else if id = 32 then
    if size = 32 then "wsp" else "sp"
  else if id = 33 then
    "nzcv"
  else if 64 ≤ id ∧ id ≤ 95 then
    match arm64VectorLetter? kind size with
    | some letter => indexed letter (id - 64)
    | none => unknownName
  else
    unknownName

/-- The RISC-V general registers, by number. -/
def riscVGeneralNames : List String :=
  ["zero", "ra", "sp", "gp", "tp", "t0", "t1", "t2",
    "s0", "s1", "a0", "a1", "a2", "a3", "a4", "a5",
    "a6", "a7", "s2", "s3", "s4", "s5", "s6", "s7",
    "s8", "s9", "s10", "s11", "t3", "t4", "t5", "t6"]

/-- The RISC-V floating-point registers, by number. -/
def riscVFloatNames : List String :=
  ["ft0", "ft1", "ft2", "ft3", "ft4", "ft5", "ft6", "ft7",
    "fs0", "fs1", "fa0", "fa1", "fa2", "fa3", "fa4", "fa5",
    "fa6", "fa7", "fs2", "fs3", "fs4", "fs5", "fs6", "fs7",
    "fs8", "fs9", "fs10", "fs11", "ft8", "ft9", "ft10", "ft11"]

/-- The RISC-V name of register `id`. -/
def riscVName (id : Nat) : String :=
  if id < 32 then
    riscVGeneralNames[id]?.getD unknownName
  else if id = 32 then
    "pc"
  else if 64 ≤ id then
    riscVFloatNames[id - 64]?.getD unknownName
  else
    unknownName

/-- The C64x control registers, by number; some numbers are unassigned. -/
def c64xControlName? : Nat → Option String
  | 0 => some "amr"
  | 1 => some "csr"
  | 2 => some "isr"
  | 3 => some "icr"
  | 4 => some "ier"
  | 5 => some "istp"
  | 6 => some "irp"
  | 7 => some "nrp"
  | 10 => some "tscl"
  | 11 => some "tsch"
  | 13 => some "ilc"
  | 14 => some "rilc"
  | 15 => some "rep"
  | 16 => some "pce1"
  | 17 => some "dnum"
  | 21 => some "ssr"
  | 22 => some "gplya"
  | 23 => some "gplyb"
  | 24 => some "gfpgfr"
  | 26 => some "tsr"
  | 27 => some "itsr"
  | 28 => some "ntsr"
  | 29 => some "efr"
  | 31 => some "ierr"
  | _ => none

/-- Whether a C64x control register has this number. -/
def c64xControlExists (number : Nat) : Bool :=
  (c64xControlName? number).isSome

/-- The C64x name of register `id`. -/
def c64xName (id : Nat) : String :=
  if id < 32 then
    indexed "a" id
  else if id < 64 then
    indexed "b" (id - 32)
  else
    (c64xControlName? (id - 64)).getD unknownName

/-- The assembly name of a register. -/
def name (register : Register) : String :=
  match register.architecture with
  | .arm64 => arm64Name register.kind register.id register.size
  | .riscV64 | .riscV32 => riscVName register.id
  | .c64x => c64xName register.id
  | .unknown _ => unknownName

end Register

end MachineCode
