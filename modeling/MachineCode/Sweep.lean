import MachineCode.Engine

/-!
# Linear sweeps

A sweep decodes an input from the front to the end. Where nothing decodes, it
gives up as many bytes as the instruction set says, at least one and at most
all that are left, and either reports the error or shows the bytes as data.

The same sweep is offered three ways: as the whole list (`sweep`), as a list
of bounded length (`sweepAtMost`), and item by item through a cursor
(`Cursor.next?`).
-/

namespace MachineCode

/-- An item of a sweep. -/
abbrev Item :=
  Except DecodeError Instruction

/-- One step of a sweep. -/
structure Step where
  /-- The number of bytes that the step moves on by. -/
  consumed : Nat
  item : Item

namespace Engine

/-- The number of bytes given up at the front of an input. -/
def giveUp (engine : Engine) (input : List UInt8) : Nat :=
  max 1 (min engine.skipSize input.length)

/-- The item at the front of an input. -/
def step (engine : Engine) (input : List UInt8) (address : Address) : Step :=
  match engine.decode input address with
  | .ok decoded => ⟨decoded.instruction.size, .ok decoded.instruction⟩
  | .error error =>
    let skip := engine.giveUp input
    if engine.options.skipData && !input.isEmpty then
      ⟨skip, .ok
        (Instruction.data address (input.take skip)
          engine.options.dataMnemonic)⟩
    else
      ⟨skip, .error error⟩

/-- Every step moves on. -/
theorem step_consumed_pos
    (engine : Engine)
    (input : List UInt8)
    (address : Address) :
    0 < (engine.step input address).consumed := by
  unfold step
  split
  · rename_i success
    exact decodeWith_size_pos success
  · dsimp only
    split
    · simp only [giveUp]
      omega
    · simp only [giveUp]
      omega

/-- What is left after a step is shorter. -/
theorem length_drop_step_lt
    {engine : Engine}
    {input : List UInt8}
    {address : Address}
    (nonempty : input ≠ []) :
    (input.drop (engine.step input address).consumed).length <
      input.length := by
  have moves := engine.step_consumed_pos input address
  have size := List.length_pos_iff.mpr nonempty
  rw [List.length_drop]
  omega

/-- All items of an input. -/
def sweep (engine : Engine) (input : List UInt8) (address : Address) :
    List Item :=
  if _ : input = [] then
    []
  else
    let step := engine.step input address
    step.item ::
      engine.sweep (input.drop step.consumed) (address.advance step.consumed)
termination_by input.length
decreasing_by
  rename_i nonempty
  exact length_drop_step_lt nonempty

/-- The first items of an input, at most `count` of them. -/
def sweepAtMost (engine : Engine) :
    (count : Nat) → (input : List UInt8) → (address : Address) → List Item
  | 0, _, _ => []
  | count + 1, input, address =>
    if input = [] then
      []
    else
      let step := engine.step input address
      step.item ::
        engine.sweepAtMost count (input.drop step.consumed)
          (address.advance step.consumed)

end Engine

/-- A place within an input that is swept item by item. -/
structure Cursor where
  engine : Engine
  input : List UInt8
  /-- The address of the first byte of the input. -/
  start : Address
  /-- The number of bytes passed. -/
  offset : Nat := 0

namespace Cursor

/-- What is left of the input. -/
def remaining (cursor : Cursor) : List UInt8 :=
  cursor.input.drop cursor.offset

/-- The step at the cursor. -/
def step (cursor : Cursor) : Step :=
  cursor.engine.step cursor.remaining (cursor.start.advance cursor.offset)

/-- The cursor after its step. -/
def advance (cursor : Cursor) : Cursor :=
  { cursor with offset := cursor.offset + cursor.step.consumed }

/-- The next item and the cursor behind it. -/
def next? (cursor : Cursor) : Option (Item × Cursor) :=
  if cursor.remaining = [] then
    none
  else
    some (cursor.step.item, cursor.advance)

theorem length_remaining_advance_lt
    {cursor : Cursor}
    (nonempty : cursor.remaining ≠ []) :
    cursor.advance.remaining.length < cursor.remaining.length := by
  have shorter :
      (cursor.remaining.drop cursor.step.consumed).length <
        cursor.remaining.length :=
    Engine.length_drop_step_lt nonempty
  simpa [advance, remaining, List.drop_drop] using shorter

/-- All items from the cursor on. -/
def items (cursor : Cursor) : List Item :=
  match _ : cursor.next? with
  | none => []
  | some (item, next) => item :: next.items
termination_by cursor.remaining.length
decreasing_by
  rename_i found
  unfold next? at found
  split at found
  · cases found
  · rename_i nonempty
    cases found
    exact length_remaining_advance_lt nonempty

end Cursor

end MachineCode
