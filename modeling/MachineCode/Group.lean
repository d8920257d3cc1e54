import MachineCode.Architecture
import MachineCode.Bits

/-!
# Instruction groups

Tags under which instructions are found: what they do to the flow of control,
what data they work on, and which functional unit runs them. A set of tags is
a bit mask with one bit for each group, in the order of declaration; a mask
may hold further bits, which name nothing.
-/

namespace MachineCode

attribute [local instance (2000)] instPowNat

/-- A tag of an instruction. -/
inductive Group where
  | jump
  | call
  | ret
  | interrupt
  | privilege
  | branchRelative
  | float
  | vector
  | unitD
  | unitL
  | unitM
  | unitS
  | unitNone
deriving DecidableEq, Repr

namespace Group

/-- All groups, in the order of their bits. -/
def all : List Group :=
  [.jump, .call, .ret, .interrupt, .privilege, .branchRelative, .float,
    .vector, .unitD, .unitL, .unitM, .unitS, .unitNone]

/-- The bit that stands for the group. -/
def position : Group → Nat
  | .jump => 0
  | .call => 1
  | .ret => 2
  | .interrupt => 3
  | .privilege => 4
  | .branchRelative => 5
  | .float => 6
  | .vector => 7
  | .unitD => 8
  | .unitL => 9
  | .unitM => 10
  | .unitS => 11
  | .unitNone => 12

theorem position_inj {left right : Group} :
    left.position = right.position ↔ left = right := by
  cases left <;> cases right <;> decide

/-- The name of the group. -/
def name : Group → String
  | .jump => "jump"
  | .call => "call"
  | .ret => "return"
  | .interrupt => "int"
  | .privilege => "privilege"
  | .branchRelative => "branch_relative"
  | .float => "float"
  | .vector => "vector"
  | .unitD => "funit_d"
  | .unitL => "funit_l"
  | .unitM => "funit_m"
  | .unitS => "funit_s"
  | .unitNone => "funit_no"

/-- The group with a given name. -/
def ofName (text : String) : Except NameError Group :=
  match all.find? fun group => group.name = text with
  | some group => .ok group
  | none => .error (.group text)

end Group

/-- A set of groups, as a bit mask. -/
structure Groups where
  bits : Nat
deriving DecidableEq, Repr

namespace Groups

/-- No group at all. -/
def empty : Groups :=
  ⟨0⟩

/-- Whether a group is in the set. -/
def has (groups : Groups) (group : Group) : Bool :=
  groups.bits.testBit group.position

/-- The set with one more group. -/
def insert (groups : Groups) (group : Group) : Groups :=
  ⟨groups.bits ||| 2 ^ group.position⟩

/-- The set of the listed groups. -/
def ofList (groups : List Group) : Groups :=
  groups.foldl insert empty

/-- Whether every bit of `others` is set. -/
def containsAll (groups others : Groups) : Bool :=
  groups.bits &&& others.bits = others.bits

/-- The members, in the order of their bits. -/
def toList (groups : Groups) : List Group :=
  Group.all.filter groups.has

/-- The names of the members, in the order of their bits. -/
def names (groups : Groups) : List String :=
  groups.toList.map Group.name

@[simp]
theorem has_insert (groups : Groups) (added group : Group) :
    (groups.insert added).has group =
      (groups.has group || decide (group = added)) := by
  simp [has, insert, Nat.testBit_two_pow, Group.position_inj, eq_comm]

@[simp]
theorem has_empty (group : Group) : empty.has group = false := by
  simp [has, empty]

end Groups

end MachineCode
