import MachineCode.Table.Run

/-!
# Changed operands

Two reads of one format may differ by a change of the operands alone. That is
so if they do the same part by part (`ReadsChanged.bind`), and the operands
that are made of the parts differ by the change.

A rule for a preferred form commutes with a change of operands if it accepts
the changed operands whenever it accepts the operands, and gives the changed
result (`Alias.CommutesWith`). If all rules do, so does the choice of the
preferred form (`Alias.canonicalize_mapOperands`).
-/

namespace MachineCode

/-- The form with its operands changed. -/
def Form.mapOperands (change : Operand → Operand) (form : Form) : Form :=
  { form with operands := form.operands.map change }

/-- The reading with its operands changed. -/
def Reading.mapOperands (change : Operand → Operand) (reading : Reading) :
    Reading :=
  { reading with operands := reading.operands.map change }

/-- The raw instruction with its operands changed. -/
def RawInstruction.mapOperands
    (change : Operand → Operand)
    (raw : RawInstruction) :
    RawInstruction :=
  { raw with operands := raw.operands.map change }

/-- The detail record with its operands changed. -/
def Detail.mapOperands (change : Operand → Operand) (detail : Detail) :
    Detail :=
  { detail with
    operands :=
      detail.operands.map fun accessed =>
        { accessed with operand := change accessed.operand } }

theorem OpcodeInfo.accessOperands_map
    (change : Operand → Operand)
    (operands : List Operand)
    (accesses : List Access) :
    accessOperands (operands.map change) accesses =
      (accessOperands operands accesses).map fun accessed =>
        { accessed with operand := change accessed.operand } := by
  induction operands generalizing accesses with
  | nil => rfl
  | cons operand operands induction =>
      cases accesses with
      | nil => exact congrArg _ (induction [])
      | cons access accesses => exact congrArg _ (induction accesses)

theorem OpcodeInfo.detail_mapOperands
    (change : Operand → Operand)
    (info : OpcodeInfo)
    (operands : List Operand)
    (specifics : Specifics) :
    info.detail (operands.map change) specifics =
      (info.detail operands specifics).mapOperands change := by
  rw [detail, accessOperands_map]
  rfl

/-! ## Reads -/

/-- Whether a read gives what another gives, with its operands changed. -/
def ReadsChanged
    (change : Operand → Operand)
    (here there : Read Reading) :
    Prop :=
  there = Reading.mapOperands change <$> here

/-- Whether a read gives an operand that the change leaves alone. -/
def Stays (change : Operand → Operand) (part : Read Operand) : Prop :=
  ∀ operand, part = .ok operand → change operand = operand

namespace ReadsChanged

variable
  {α : Type}
  {change : Operand → Operand}

theorem ok
    {here there : Reading}
    (changed : there = here.mapOperands change) :
    ReadsChanged change (.ok here) (.ok there) :=
  congrArg Except.ok changed

theorem error (cause : OperandError) :
    ReadsChanged change (.error cause) (.error cause) :=
  rfl

/-- Reads of which is known what they give. -/
theorem of_eq_ok
    {here there : Read Reading}
    {reading other : Reading}
    (reads : here = .ok reading)
    (readsOther : there = .ok other)
    (changed : other = reading.mapOperands change) :
    ReadsChanged change here there := by
  rw [reads, readsOther]
  exact ok changed

/-- Reads with a common first part. -/
theorem bind
    (first : Read α)
    {here there : α → Read Reading}
    (rest : ∀ value, ReadsChanged change (here value) (there value)) :
    ReadsChanged change (first >>= here) (first >>= there) := by
  cases first with
  | ok value => exact rest value
  | error cause => exact error cause

/-- Reads with a first part that the change leaves alone. -/
theorem bindStays
    {first : Read Operand}
    (stays : Stays change first)
    {here there : Operand → Read Reading}
    (rest :
      ∀ operand, change operand = operand →
        ReadsChanged change (here operand) (there operand)) :
    ReadsChanged change (first >>= here) (first >>= there) := by
  cases given : first with
  | ok operand => exact rest operand (stays operand given)
  | error cause => exact error cause

theorem ite
    {condition : Prop}
    [Decidable condition]
    {here hereElse there thereElse : Read Reading}
    (whenTrue : ReadsChanged change here there)
    (whenFalse : ReadsChanged change hereElse thereElse) :
    ReadsChanged change (if condition then here else hereElse)
      (if condition then there else thereElse) := by
  split
  · exact whenTrue
  · exact whenFalse

end ReadsChanged

/-! ## Preferred forms -/

namespace Alias

/-- Whether a reduction of operands commutes with a change of them. -/
def CommutesWith
    (change : Operand → Operand)
    (reduce : List Operand → Option (List Operand)) :
    Prop :=
  ∀ operands,
    reduce (operands.map change) = (reduce operands).map (List.map change)

variable {change : Operand → Operand}

/-- A reduction on a condition that does not notice the change. -/
theorem commutes_ite
    {here there : Bool}
    {given changed : List Operand}
    (sameCondition : there = here)
    (sameChange : changed = given.map change) :
    (if there then some changed else none) =
      (if here then some given else none).map (List.map change) := by
  rw [sameCondition, sameChange, Option.map_if]

theorem form?_mapOperands
    {rule : Alias}
    (commutes : CommutesWith change rule.reduce)
    (raw : Form) :
    rule.form? (raw.mapOperands change) =
      (rule.form? raw).map (Form.mapOperands change) := by
  rw [form?, form?, Form.mapOperands]
  split
  · rw [commutes, Option.map_map, Option.map_map]
    rfl
  · rfl

/-- If no rule notices the change, the preferred form is changed the same. -/
theorem canonicalize_mapOperands
    {rules : List Alias}
    (commute : ∀ rule ∈ rules, CommutesWith change rule.reduce)
    (raw : Form) :
    canonicalize rules (raw.mapOperands change) =
      (canonicalize rules raw).mapOperands change := by
  have same :
      (rules.findSome? fun rule => rule.form? (raw.mapOperands change)) =
        (rules.findSome? fun rule => rule.form? raw).map
          (Form.mapOperands change) := by
    induction rules with
    | nil => rfl
    | cons rule rules induction =>
        have first := form?_mapOperands (commute rule List.mem_cons_self) raw
        rw [List.findSome?_cons, List.findSome?_cons, first]
        cases rule.form? raw with
        | some form => rfl
        | none =>
            exact induction fun other member =>
              commute other (List.mem_cons_of_mem _ member)
  rw [canonicalize, canonicalize, same]
  cases rules.findSome? fun rule => rule.form? raw with
  | none => rfl
  | some form => rfl

end Alias

end MachineCode
