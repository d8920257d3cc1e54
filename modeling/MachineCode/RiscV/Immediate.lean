import MachineCode.Bits

/-!
# Scattered immediates

Where the bits of an immediate stand in a RISC-V word. The formats keep the
registers in fixed places, so the bits of an immediate are spread over what is
left. Each list moves the runs of bits to their places in the immediate.
-/

namespace MachineCode.RiscV.Immediate

/-- The 21-bit offset of a jump. -/
def jump : List BitPiece :=
  [⟨21, 10, 1⟩, ⟨20, 1, 11⟩, ⟨12, 8, 12⟩, ⟨31, 1, 20⟩]

/-- The 13-bit offset of a branch. -/
def branch : List BitPiece :=
  [⟨8, 4, 1⟩, ⟨25, 6, 5⟩, ⟨7, 1, 11⟩, ⟨31, 1, 12⟩]

/-- The 12-bit offset of a store. -/
def store : List BitPiece :=
  [⟨7, 5, 0⟩, ⟨25, 7, 5⟩]

/-- The 12-bit offset of a compressed jump. -/
def shortJump : List BitPiece :=
  [⟨3, 3, 1⟩, ⟨11, 1, 4⟩, ⟨2, 1, 5⟩, ⟨7, 1, 6⟩, ⟨6, 1, 7⟩, ⟨9, 2, 8⟩,
    ⟨8, 1, 10⟩, ⟨12, 1, 11⟩]

/-- The 9-bit offset of a compressed branch. -/
def shortBranch : List BitPiece :=
  [⟨3, 2, 1⟩, ⟨10, 2, 3⟩, ⟨2, 1, 5⟩, ⟨5, 2, 6⟩, ⟨12, 1, 8⟩]

/-- The 6-bit constant of a compressed instruction. -/
def shortConstant : List BitPiece :=
  [⟨2, 5, 0⟩, ⟨12, 1, 5⟩]

/-- The 10-bit distance from the stack pointer. -/
def stackAddress : List BitPiece :=
  [⟨6, 1, 2⟩, ⟨5, 1, 3⟩, ⟨11, 2, 4⟩, ⟨7, 4, 6⟩]

/-- The 10-bit change of the stack pointer. -/
def stackChange : List BitPiece :=
  [⟨6, 1, 4⟩, ⟨2, 1, 5⟩, ⟨5, 1, 6⟩, ⟨3, 2, 7⟩, ⟨12, 1, 9⟩]

/-- The offset of a compressed access to a word. -/
def shortWord : List BitPiece :=
  [⟨6, 1, 2⟩, ⟨10, 3, 3⟩, ⟨5, 1, 6⟩]

/-- The offset of a compressed access to a doubleword. -/
def shortDouble : List BitPiece :=
  [⟨10, 3, 3⟩, ⟨5, 2, 6⟩]

/-- The offset of a load of a word from the stack. -/
def stackLoadWord : List BitPiece :=
  [⟨4, 3, 2⟩, ⟨12, 1, 5⟩, ⟨2, 2, 6⟩]

/-- The offset of a load of a doubleword from the stack. -/
def stackLoadDouble : List BitPiece :=
  [⟨5, 2, 3⟩, ⟨12, 1, 5⟩, ⟨2, 3, 6⟩]

/-- The offset of a store of a word to the stack. -/
def stackStoreWord : List BitPiece :=
  [⟨9, 4, 2⟩, ⟨7, 2, 6⟩]

/-- The offset of a store of a doubleword to the stack. -/
def stackStoreDouble : List BitPiece :=
  [⟨10, 3, 3⟩, ⟨7, 3, 6⟩]

end MachineCode.RiscV.Immediate
