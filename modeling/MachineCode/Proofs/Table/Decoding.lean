import MachineCode.Proofs.Table.Paths
import MachineCode.Proofs.Table.Trace

/-!
# What has been decoded

A run that succeeds has ended at a `decode` entry: the opcode of the result is
that of the entry, and the operands are what the format of the entry reads
from the word (`Isa.exists_decode_of_run`). Told by the program instead of the
flat table, it has taken a path that ends with the opcode, and a result
without a reservation has met what the end of the path expects
(`Program.exists_path_of_success`).
-/

namespace MachineCode

/-- Whether the opcode and the format of an entry that decodes fit. -/
def Entry.fits (fit : Nat → Nat → Bool) : Entry → Bool
  | .decode opcode format => fit opcode format
  | _ => true

namespace Isa

variable {isa : Isa} {word : Word}

/-- A finished decoding consists of what its format reads. -/
theorem exists_reading_of_finishDecode
    {opcode format : Nat}
    {violated : Bool}
    {raw : RawInstruction}
    (decoded : isa.finishDecode word opcode format violated = .ok raw) :
    ∃ reading,
      isa.readOperands format word = .ok reading ∧
        raw.opcode = opcode ∧
        raw.operands = reading.operands ∧
        raw.specifics = reading.specifics := by
  rw [finishDecode] at decoded
  split at decoded
  · cases decoded
  · next reading read =>
    cases decoded
    exact ⟨reading, read, rfl, rfl, rfl⟩

/-- A decoding without a reservation has violated no expectation. -/
theorem violated_eq_false_of_finishDecode
    {opcode format : Nat}
    {violated : Bool}
    {raw : RawInstruction}
    (decoded : isa.finishDecode word opcode format violated = .ok raw)
    (success : raw.status = .success) :
    violated = false := by
  cases violated with
  | false => rfl
  | true =>
      rw [finishDecode] at decoded
      split at decoded
      · cases decoded
      · cases decoded
        cases success

variable {table : Table} {features : Features} {raw : RawInstruction}

/-- The visits of a successful run end at an entry that decodes. -/
theorem Runs.exists_decode
    {state : RunState}
    {visits : List Visit}
    {outcome : Outcome}
    (runs : isa.Runs table word features state visits outcome)
    (success : outcome = .ok raw) :
    ∃ opcode format violated,
      .decode opcode format ∈ table.entries ∧
        isa.finishDecode word opcode format violated = .ok raw := by
  induction runs with
  | leave outside => cases success
  | goOn found moved later induction => exact induction success
  | @stop state entry outcome found ended =>
      have member : entry ∈ table.entries := List.mem_of_getElem? found
      cases entry with
      | decode opcode format =>
          have finished := (Continuation.stop.inj ended).trans success
          exact ⟨opcode, format, state.violated, member, finished⟩
      | fail =>
          have failed := (Continuation.stop.inj ended).trans success
          cases failed
      | filter | require | expect => cases ended
      | extract | check =>
          simp only [visit] at ended
          split at ended
          · have failed := (Continuation.stop.inj ended).trans success
            cases failed
          · cases ended

/-- What a table has decoded is read in the format of one of its entries. -/
theorem exists_decode_of_run
    (decoded : isa.run table word features = .ok raw) :
    ∃ format reading,
      .decode raw.opcode format ∈ table.entries ∧
        isa.readOperands format word = .ok reading ∧
        raw.operands = reading.operands ∧
        raw.specifics = reading.specifics := by
  rcases isa.exists_runs table word features with ⟨visits, runs⟩
  rcases runs.exists_decode decoded with
    ⟨opcode, format, violated, member, finished⟩
  rcases exists_reading_of_finishDecode finished with
    ⟨reading, read, rfl, operands, specifics⟩
  exact ⟨format, reading, member, read, operands, specifics⟩

/--
A test of opcodes and formats that every entry passes, passed by what the
table has decoded.
-/
theorem exists_fit_of_run
    {fit : Nat → Nat → Bool}
    (fits : ∀ entry ∈ table.entries, entry.fits fit)
    (decoded : isa.run table word features = .ok raw) :
    ∃ format reading,
      fit raw.opcode format ∧
        isa.readOperands format word = .ok reading ∧
        raw.operands = reading.operands ∧
        raw.specifics = reading.specifics := by
  rcases exists_decode_of_run decoded with ⟨format, reading, member, result⟩
  exact ⟨format, reading, fits _ member, result⟩

end Isa

/-- What decodes without a reservation has met what its path expects. -/
theorem Program.exists_path_of_success
    {isa : Isa}
    {features : Features}
    {word : Word}
    {program : Program}
    {raw : RawInstruction}
    (decoded : program.eval isa features word = .ok raw)
    (success : raw.status = .success) :
    ∃ path ∈ program.paths,
      path.holds (isa.grants · features) word.value ∧
        ∃ format zeros ones,
          path.ending = .decode raw.opcode format zeros ones ∧
            violates word.value zeros ones = false ∧
            isa.finishDecode word raw.opcode format false = .ok raw := by
  rcases Program.exists_path_of_eval decoded with
    ⟨path, member, holds, opcode, format, zeros, ones, ending, finished⟩
  have met := Isa.violated_eq_false_of_finishDecode finished success
  rcases Isa.exists_reading_of_finishDecode finished with ⟨-, -, rfl, -⟩
  rw [met] at finished
  exact ⟨path, member, holds, format, zeros, ones, ending, met, finished⟩

end MachineCode
