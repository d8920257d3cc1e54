import MachineCode.Operand

/-!
# Preferred forms

An instruction set may prefer another spelling for some operands of an
opcode: an addition of zero is shown as a move. An alias rule belongs to one
opcode; it refuses the operands, or gives the operands of the alias.

`canonicalize` applies the first rule that accepts, once. When no rule starts
from an alias that some rule produces (`Alias.areFinal`), nothing is left to
apply afterwards.
-/

namespace MachineCode

/-- An opcode together with its operands. -/
structure Form where
  opcode : Nat
  operands : List Operand
deriving DecidableEq, Repr

namespace Form

/-- Whether two forms have one opcode and agreeing operands. -/
def agrees (left right : Form) : Bool :=
  left.opcode = right.opcode &&
    Operand.listAgrees left.operands right.operands

end Form

/-- A preferred spelling of some forms of one opcode. -/
structure Alias where
  /-- The opcode that the rule is for. -/
  opcode : Nat
  /-- The opcode of the preferred spelling. -/
  preferred : Nat
  /-- The operands of the preferred spelling, if it applies. -/
  reduce : List Operand → Option (List Operand)

namespace Alias

/-- The preferred form that the rule gives, if it applies. -/
def form? (rule : Alias) (raw : Form) : Option Form :=
  if rule.opcode = raw.opcode then
    (rule.reduce raw.operands).map fun operands => ⟨rule.preferred, operands⟩
  else
    none

/-- The form that the first accepting rule gives, or the form itself. -/
def canonicalize (rules : List Alias) (form : Form) : Form :=
  (rules.findSome? fun rule => rule.form? form).getD form

/-- Whether no rule starts from an alias of another. -/
def areFinal (rules : List Alias) : Bool :=
  rules.all fun produced => rules.all fun rule =>
    rule.opcode ≠ produced.preferred

end Alias

end MachineCode
