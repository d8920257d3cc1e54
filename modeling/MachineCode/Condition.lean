/-!
# Conditions

The tests that a conditional instruction can make, named as assemblers name
them. Each condition has an opposite that holds exactly when it does not.
-/

namespace MachineCode

/-- A test on the outcome of an earlier comparison. -/
inductive Condition where
  | equal
  | notEqual
  /-- Unsigned greater. -/
  | above
  /-- Unsigned greater or equal. -/
  | aboveOrEqual
  /-- Unsigned less. -/
  | below
  /-- Unsigned less or equal. -/
  | belowOrEqual
  /-- Signed greater. -/
  | greater
  /-- Signed greater or equal. -/
  | greaterOrEqual
  /-- Signed less. -/
  | less
  /-- Signed less or equal. -/
  | lessOrEqual
  /-- The sign bit is set. -/
  | negative
  /-- The sign bit is clear. -/
  | nonNegative
  | overflow
  | noOverflow
  | always
  | never
deriving DecidableEq, Repr

namespace Condition

/-- All conditions, in the order of their declaration. -/
def all : List Condition :=
  [.equal, .notEqual, .above, .aboveOrEqual, .below, .belowOrEqual,
    .greater, .greaterOrEqual, .less, .lessOrEqual, .negative, .nonNegative,
    .overflow, .noOverflow, .always, .never]

/-- The condition that holds exactly when this one does not. -/
def inverse : Condition → Condition
  | .equal => .notEqual
  | .notEqual => .equal
  | .above => .belowOrEqual
  | .aboveOrEqual => .below
  | .below => .aboveOrEqual
  | .belowOrEqual => .above
  | .greater => .lessOrEqual
  | .greaterOrEqual => .less
  | .less => .greaterOrEqual
  | .lessOrEqual => .greater
  | .negative => .nonNegative
  | .nonNegative => .negative
  | .overflow => .noOverflow
  | .noOverflow => .overflow
  | .always => .never
  | .never => .always

@[simp]
theorem inverse_inverse (condition : Condition) :
    condition.inverse.inverse = condition := by
  cases condition <;> rfl

/-- The two-letter name. -/
def name : Condition → String
  | .equal => "eq"
  | .notEqual => "ne"
  | .above => "hi"
  | .aboveOrEqual => "hs"
  | .below => "lo"
  | .belowOrEqual => "ls"
  | .greater => "gt"
  | .greaterOrEqual => "ge"
  | .less => "lt"
  | .lessOrEqual => "le"
  | .negative => "mi"
  | .nonNegative => "pl"
  | .overflow => "vs"
  | .noOverflow => "vc"
  | .always => "al"
  | .never => "nv"

/-- The condition with a given two-letter name. -/
def ofName? (text : String) : Option Condition :=
  all.find? fun condition => condition.name = text

end Condition

end MachineCode
