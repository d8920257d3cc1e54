import MachineCode.Register

/-!
# Register files

Instructions name registers by small numbers. A register file lists the
registers behind those numbers; a number past its end, or one whose place is
empty, names nothing. `Banks` pairs two files for a machine with two sides,
where an operand may be fetched from the opposite side.
-/

namespace MachineCode

/-- The registers that an encoded number stands for. -/
structure RegisterFile where
  /-- How a failed look-up calls the file. -/
  name : String
  /-- The register at each encoded number. -/
  entries : List (Option Register)
deriving DecidableEq, Repr

namespace RegisterFile

/-- The number of places. -/
def size (file : RegisterFile) : Nat :=
  file.entries.length

/-- Whether the file has no place at all. -/
def isEmpty (file : RegisterFile) : Bool :=
  file.entries.isEmpty

/-- The register behind an encoded number. -/
def get? (file : RegisterFile) (number : Nat) : Option Register :=
  file.entries[number]?.join

/-- Consecutive registers of one class and width. -/
def sequential
    (count : Nat)
    (architecture : Architecture)
    (kind : RegisterClass)
    (first size : Nat) :
    List (Option Register) :=
  (List.range count).map fun index =>
    some ⟨architecture, kind, first + index, size⟩

theorem length_sequential
    (count : Nat)
    (architecture : Architecture)
    (kind : RegisterClass)
    (first size : Nat) :
    (sequential count architecture kind first size).length = count := by
  simp [sequential]

/-- A file of consecutive registers has a register at each of its places. -/
theorem get?_sequential
    {name : String}
    {count : Nat}
    {architecture : Architecture}
    {kind : RegisterClass}
    {first size index : Nat}
    (inside : index < count) :
    (RegisterFile.mk name
        (sequential count architecture kind first size)).get? index =
      some ⟨architecture, kind, first + index, size⟩ := by
  simp [get?, sequential, List.getElem?_range inside]

end RegisterFile

/-- The register files of a machine with two sides. -/
structure Banks where
  /-- The file of side 0. -/
  near : RegisterFile
  /-- The file of side 1. -/
  far : RegisterFile
deriving DecidableEq, Repr

namespace Banks

/-- The file of a side, if there is such a side. -/
def file? (banks : Banks) : Nat → Option RegisterFile
  | 0 => some banks.near
  | 1 => some banks.far
  | _ => none

/-- The register behind an encoded number on one side. -/
def get? (banks : Banks) (side number : Nat) : Option Register :=
  (banks.file? side).bind (·.get? number)

/-- As `get?`, but from the opposite side when the operand crosses over. -/
def getCrossed? (banks : Banks) (side : Nat) (crossed : Bool) (number : Nat) :
    Option Register :=
  banks.get? (side ^^^ crossed.toNat) number

end Banks

end MachineCode
