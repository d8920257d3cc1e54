import MachineCode.Sweep

/-!
# The stops of a sweep

A cursor moves over its input in steps. Its stops are the offsets at which
these steps begin, and the items from the cursor on are those of its stops
(`Cursor.items_eq_map_stops`).

Whether an input is swept at once, up to a number of items, or item by item
makes no difference (`Engine.sweeps_agree`): the item at an offset depends on
what is left there and on the address, and the ways of sweeping agree on both.
-/

namespace MachineCode

namespace Engine

/-! ## One step -/

section Step

variable
  {engine : Engine}
  {input : List UInt8}
  {address : Address}

theorem giveUp_pos (engine : Engine) (input : List UInt8) :
    0 < engine.giveUp input :=
  Nat.le_max_left ..

theorem giveUp_le (nonempty : input ≠ []) :
    engine.giveUp input ≤ input.length :=
  Nat.max_le.mpr ⟨List.length_pos_iff.mpr nonempty, Nat.min_le_right ..⟩

theorem length_take_giveUp (nonempty : input ≠ []) :
    (input.take (engine.giveUp input)).length = engine.giveUp input :=
  List.length_take_of_le (giveUp_le nonempty)

theorem step_of_decode
    {decoded : Decoded}
    (success : engine.decode input address = .ok decoded) :
    engine.step input address =
      ⟨decoded.instruction.size, .ok decoded.instruction⟩ := by
  rw [step, success]

/-- Where something is left that does not decode, bytes are given up. -/
theorem step_of_error
    (nonempty : input ≠ [])
    {error : DecodeError}
    (failed : engine.decode input address = .error error) :
    engine.step input address =
      ⟨engine.giveUp input,
        if engine.options.skipData then
          .ok
            (.data address (input.take (engine.giveUp input))
              engine.options.dataMnemonic)
        else
          .error error⟩ := by
  rw [step, failed]
  cases shows : engine.options.skipData <;> simp [nonempty]

end Step

/-- The step at an offset of an input. -/
def stepAt
    (engine : Engine)
    (input : List UInt8)
    (start : Address)
    (offset : Nat) :
    Step :=
  engine.step (input.drop offset) (start.advance offset)

end Engine

/-! ## Moving a cursor -/

namespace Cursor

/-- The address of the first byte that is left. -/
def address (cursor : Cursor) : Address :=
  cursor.start.advance cursor.offset

theorem remaining_advance (cursor : Cursor) :
    cursor.advance.remaining =
      cursor.remaining.drop cursor.step.consumed :=
  List.drop_drop.symm

theorem address_advance (cursor : Cursor) :
    cursor.advance.address = cursor.address.advance cursor.step.consumed :=
  (Address.advance_advance ..).symm

theorem items_of_remaining_eq_nil
    {cursor : Cursor}
    (done : cursor.remaining = []) :
    cursor.items = [] := by
  have ended : cursor.next? = none := if_pos done
  rw [items]
  split
  · rfl
  · next found =>
    rw [ended] at found
    cases found

theorem items_of_remaining_ne_nil
    {cursor : Cursor}
    (more : cursor.remaining ≠ []) :
    cursor.items = cursor.step.item :: cursor.advance.items := by
  have moved : cursor.next? = some (cursor.step.item, cursor.advance) :=
    if_neg more
  rw [items]
  split
  · next ended =>
    rw [moved] at ended
    cases ended
  · next found =>
    rw [moved] at found
    cases found
    rfl

/-- The offsets at which the steps from the cursor on begin. -/
def stops (cursor : Cursor) : List Nat :=
  if _ : cursor.remaining = [] then
    []
  else
    cursor.offset :: cursor.advance.stops
termination_by cursor.remaining.length
decreasing_by
  rename_i more
  exact length_remaining_advance_lt more

theorem stops_of_remaining_eq_nil
    {cursor : Cursor}
    (done : cursor.remaining = []) :
    cursor.stops = [] := by
  rw [stops, dif_pos done]

theorem stops_of_remaining_ne_nil
    {cursor : Cursor}
    (more : cursor.remaining ≠ []) :
    cursor.stops = cursor.offset :: cursor.advance.stops := by
  rw [stops, dif_neg more]

/-- Something is left wherever a step begins. -/
theorem drop_ne_nil_of_mem_stops
    {cursor : Cursor}
    {offset : Nat}
    (member : offset ∈ cursor.stops) :
    cursor.input.drop offset ≠ [] := by
  induction cursor using stops.induct with
  | case1 cursor done =>
      rw [stops_of_remaining_eq_nil done] at member
      cases member
  | case2 cursor more induction =>
      rw [stops_of_remaining_ne_nil more] at member
      rcases List.mem_cons.mp member with rfl | later
      · exact more
      · exact induction later

/-- The same place of the same input, swept by another engine. -/
def withEngine (cursor : Cursor) (engine : Engine) : Cursor :=
  { cursor with engine }

/-- Engines whose steps take up as many bytes stop at the same offsets. -/
theorem stops_withEngine
    {engine : Engine}
    (cursor : Cursor)
    (same :
      ∀ input address, input ≠ [] →
        (engine.step input address).consumed =
          (cursor.engine.step input address).consumed) :
    (cursor.withEngine engine).stops = cursor.stops := by
  induction cursor using stops.induct with
  | case1 cursor done =>
      rw [stops_of_remaining_eq_nil done]
      exact stops_of_remaining_eq_nil done
  | case2 cursor more induction =>
      have moved :
          (cursor.withEngine engine).advance =
            cursor.advance.withEngine engine :=
        congrArg
          (fun consumed =>
            { cursor with engine, offset := cursor.offset + consumed })
          (same cursor.remaining cursor.address more)
      rw [stops_of_remaining_ne_nil more, ← induction same, ← moved]
      exact stops_of_remaining_ne_nil more

/-- The items from a cursor on are those at its stops. -/
theorem items_eq_map_stops (cursor : Cursor) :
    cursor.items =
      cursor.stops.map fun offset =>
        (cursor.engine.stepAt cursor.input cursor.start offset).item := by
  induction cursor using stops.induct with
  | case1 cursor done =>
      rw [items_of_remaining_eq_nil done, stops_of_remaining_eq_nil done,
        List.map_nil]
  | case2 cursor more induction =>
      rw [items_of_remaining_ne_nil more, stops_of_remaining_ne_nil more,
        List.map_cons, induction]
      rfl

/-- Going on from a cursor is sweeping what is left there. -/
theorem items_eq_sweep (cursor : Cursor) :
    cursor.items = cursor.engine.sweep cursor.remaining cursor.address := by
  induction cursor using stops.induct with
  | case1 cursor done =>
      rw [items_of_remaining_eq_nil done, Engine.sweep, dif_pos done]
  | case2 cursor more induction =>
      rw [items_of_remaining_ne_nil more, induction, remaining_advance,
        address_advance, Engine.sweep.eq_1 _ cursor.remaining, dif_neg more]
      rfl

end Cursor

namespace Engine

/-! ## Whole sweeps -/

/-- The offsets at which the steps of a sweep begin. -/
def stops (engine : Engine) (input : List UInt8) (start : Address) :
    List Nat :=
  Cursor.stops { engine, input, start }

theorem items_eq_sweep
    (engine : Engine)
    (input : List UInt8)
    (start : Address) :
    Cursor.items { engine, input, start } = engine.sweep input start := by
  rw [Cursor.items_eq_sweep, Cursor.remaining, Cursor.address,
    List.drop_zero, Address.advance_zero]

/-- A sweep consists of the items at its stops. -/
theorem sweep_eq_map_stops
    (engine : Engine)
    (input : List UInt8)
    (start : Address) :
    engine.sweep input start =
      (engine.stops input start).map fun offset =>
        (engine.stepAt input start offset).item := by
  rw [← items_eq_sweep, Cursor.items_eq_map_stops]
  rfl

/-- A sweep of bounded length is the front of the whole sweep. -/
theorem sweepAtMost_eq_take
    (engine : Engine)
    (count : Nat)
    (input : List UInt8)
    (address : Address) :
    engine.sweepAtMost count input address =
      (engine.sweep input address).take count := by
  induction count generalizing input address with
  | zero => rfl
  | succ count induction =>
      rw [sweepAtMost, sweep]
      split
      · rfl
      · rw [List.take_succ_cons, ← induction]

/-- A sweep that ends before its bound is the whole sweep. -/
theorem sweep_eq_sweepAtMost
    {engine : Engine}
    {count : Nat}
    {input : List UInt8}
    {address : Address}
    (ended : (engine.sweepAtMost count input address).length < count) :
    engine.sweep input address = engine.sweepAtMost count input address := by
  rw [sweepAtMost_eq_take, List.length_take] at ended
  rw [sweepAtMost_eq_take, List.take_of_length_le (by omega)]

/--
The three ways of sweeping agree: item by item gives the same as at once, and
up to a number of items gives the first items, as many as there are.
-/
theorem sweeps_agree
    (engine : Engine)
    (input : List UInt8)
    (start : Address)
    (count : Nat) :
    Cursor.items { engine, input, start } = engine.sweep input start ∧
      engine.sweepAtMost count input start =
        (engine.sweep input start).take
          (min count (engine.sweep input start).length) ∧
      (engine.sweepAtMost count input start).length =
        min count (engine.sweep input start).length := by
  refine ⟨engine.items_eq_sweep input start, ?front, ?length⟩
  case front =>
    rw [sweepAtMost_eq_take, ← List.take_eq_take_min]
  case length =>
    rw [sweepAtMost_eq_take, List.length_take]

end Engine

end MachineCode
