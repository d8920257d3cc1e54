import MachineCode.Engine
import MachineCode.Proofs.Table.Trace

/-!
# The first word of an input

A decoding looks at the bytes of one word and at nothing behind them. While an
input is too short for its word, `WidthRule.needed?` tells for how many bytes
it is asked; once it is long enough, the word, and with it the outcome, stays
the same whatever follows (`Engine.decodeWith_append_of_needed?`). A decoded
instruction carries the bytes of that word (`Instruction.Heads`).
-/

namespace MachineCode

/-! ## Words at the front of an input -/

/-- Whether a word is the front of an input at an address. -/
structure Word.Heads
    (word : Word)
    (input : List UInt8)
    (address : Address) :
    Prop where
  address_eq : word.address = address
  bytes_eq : word.bytes = input.take word.size
  size_le : word.size ≤ maxSize

section OfBytes

variable
  {order : ByteOrder}
  {size : Nat}
  {address : Address}
  {input : List UInt8}

theorem Word.ofBytes?_append
    (enough : size ≤ input.length)
    (more : List UInt8) :
    ofBytes? order size address (input ++ more) =
      ofBytes? order size address input := by
  have longer : size ≤ (input ++ more).length :=
    Nat.le_trans enough (List.sublist_append_left input more).length_le
  simp only [ofBytes?, List.take_append_of_le_length enough,
    Nat.not_lt.mpr enough, Nat.not_lt.mpr longer]

section Read

variable
  {word : Word}
  (read : Word.ofBytes? order size address input = some word)
include read

/-- A word that is read has the first bytes of the input, and their value. -/
theorem Word.eq_of_ofBytes? :
    (size ≤ maxSize ∧ size ≤ input.length) ∧
      word.address = address ∧ word.bytes = input.take size ∧
        word.value = order.value word.bytes := by
  rw [ofBytes?] at read
  split at read
  · cases read
  · next fits =>
    dsimp only at read
    split at read
    · cases read
    · cases read
      exact ⟨by omega, rfl, rfl, rfl⟩

theorem Word.size_of_ofBytes? : word.size = size := by
  rcases eq_of_ofBytes? read with ⟨⟨-, enough⟩, -, bytes, -⟩
  rw [Word.size, bytes, List.length_take_of_le enough]

theorem Word.heads_of_ofBytes? : word.Heads input address := by
  have sized := size_of_ofBytes? read
  rcases eq_of_ofBytes? read with ⟨⟨small, -⟩, address_eq, bytes, -⟩
  exact
    { address_eq
      bytes_eq := by rw [sized, bytes]
      size_le := by rw [sized]; exact small }

end Read

end OfBytes

namespace WidthRule

/-! ## How much input a width rule asks for -/

/-- The number of bytes that an input should have but has not. -/
def needed? (rule : WidthRule) (input : List UInt8) : Option Nat :=
  if input.length < rule.least then
    some rule.least
  else
    (rule.size? input).filter fun size => input.length < size

variable {rule : WidthRule} {input : List UInt8}

theorem needed?_eq_none_iff :
    rule.needed? input = none ↔
      rule.least ≤ input.length ∧
        ∀ size, rule.size? input = some size → size ≤ input.length := by
  rw [needed?]
  split
  · next fewer => simp [Nat.not_le.mpr fewer]
  · next enough => simp [Nat.not_lt.mp enough, Option.filter_eq_none_iff]

theorem length_lt_of_needed?
    {needed : Nat}
    (short : rule.needed? input = some needed) :
    input.length < needed := by
  rw [needed?] at short
  split at short
  · next fewer =>
    cases short
    exact fewer
  · exact of_decide_eq_true (Option.filter_eq_some_iff.mp short).2

/-- The bytes that select the size are at the front. -/
theorem size?_append
    (enough : rule.least ≤ input.length)
    (more : List UInt8) :
    rule.size? (input ++ more) = rule.size? input := by
  cases rule with
  | fixed size => rfl
  | selected least most select =>
      exact congrArg select (List.take_append_of_le_length enough)

/-- An input that grows is asked for as much as before, until it has it. -/
theorem needed?_append
    {needed : Nat}
    (short : rule.needed? input = some needed)
    {more : List UInt8}
    (still : (input ++ more).length < needed) :
    rule.needed? (input ++ more) = some needed := by
  rw [needed?] at short ⊢
  split at short
  · cases short
    exact if_pos still
  · next enough =>
    have longer := (List.sublist_append_left input more).length_le
    rw [if_neg (by omega), size?_append (Nat.not_lt.mp enough)]
    rw [Option.filter_eq_some_iff] at short ⊢
    exact ⟨short.1, decide_eq_true still⟩

/-! ## Reading a word -/

variable {order : ByteOrder} {address : Address}

/-- An input that is too short is told how many bytes are needed. -/
theorem readWord_of_needed?
    {needed : Nat}
    (short : rule.needed? input = some needed) :
    rule.readWord order input address =
      .error (.insufficientInput address needed input.length) := by
  rw [needed?] at short
  rw [readWord]
  split at short
  · next fewer =>
    cases short
    exact if_pos fewer
  · next enough =>
    rcases Option.filter_eq_some_iff.mp short with ⟨selected, fewer⟩
    rw [if_neg enough, selected]
    exact if_pos (of_decide_eq_true fewer)

/-- An input that is long enough is read by the size that it selects. -/
theorem readWord_of_enough
    (enough : rule.needed? input = none) :
    rule.readWord order input address =
      match rule.size? input with
      | none => .error (.invalidEncoding address .reservedLength)
      | some size =>
        match Word.ofBytes? order size address input with
        | none => .error (.invalidEncoding address .unsupportedLength)
        | some word => .ok word := by
  rcases needed?_eq_none_iff.mp enough with ⟨enough, fits⟩
  rw [readWord, if_neg (Nat.not_lt.mpr enough)]
  cases selected : rule.size? input with
  | none => rfl
  | some size => exact if_neg (Nat.not_lt.mpr (fits size selected))

theorem readWord_append
    (enough : rule.needed? input = none)
    (more : List UInt8) :
    rule.needed? (input ++ more) = none ∧
      rule.readWord order (input ++ more) address =
        rule.readWord order input address := by
  rcases needed?_eq_none_iff.mp enough with ⟨long, fits⟩
  have longer := (List.sublist_append_left input more).length_le
  have sameSize := size?_append long more
  have stillEnough : rule.needed? (input ++ more) = none := by
    rw [needed?_eq_none_iff, sameSize]
    exact ⟨Nat.le_trans long longer,
      fun size selected => Nat.le_trans (fits size selected) longer⟩
  refine ⟨stillEnough, ?_⟩
  rw [readWord_of_enough enough, readWord_of_enough stillEnough, sameSize]
  cases selected : rule.size? input with
  | none => rfl
  | some size => simp only [Word.ofBytes?_append (fits size selected)]

/-- If the input is long enough, more of it could not help. -/
theorem isFinal_of_readWord
    (enough : rule.needed? input = none)
    {error : DecodeError}
    (failed : rule.readWord order input address = .error error) :
    error.isFinal := by
  rw [readWord_of_enough enough] at failed
  split at failed
  · cases failed
    rfl
  · split at failed
    · cases failed
      rfl
    · cases failed

/-- A word is read from the front of the input. -/
theorem heads_of_readWord
    {word : Word}
    (read : rule.readWord order input address = .ok word) :
    word.Heads input address := by
  cases enough : rule.needed? input with
  | some needed =>
      rw [readWord_of_needed? enough] at read
      cases read
  | none =>
      rw [readWord_of_enough enough] at read
      split at read
      · cases read
      · split at read
        · cases read
        · next found =>
          cases read
          exact Word.heads_of_ofBytes? found

/-- A word has the size that its leading bytes select. -/
theorem size?_of_readWord
    {word : Word}
    (read : rule.readWord order input address = .ok word) :
    rule.size? input = some word.size := by
  cases enough : rule.needed? input with
  | some needed =>
      rw [readWord_of_needed? enough] at read
      cases read
  | none =>
      rw [readWord_of_enough enough] at read
      split at read
      · cases read
      next size selected =>
      split at read
      · cases read
      next found =>
      cases read
      rw [Word.size_of_ofBytes? found, selected]

end WidthRule

/-- A word has the address that it is read from. -/
theorem Engine.address_of_readWord
    {engine : Engine}
    {input : List UInt8}
    {address : Address}
    {word : Word}
    (read : engine.readWord input address = .ok word) :
    word.address = address :=
  (WidthRule.heads_of_readWord read).address_eq

/-! ## Decoding a word -/

theorem Isa.Runs.isFinal
    {isa : Isa}
    {table : Table}
    {word : Word}
    {features : Features}
    {state : RunState}
    {visits : List Visit}
    {outcome : Outcome}
    (runs : isa.Runs table word features state visits outcome)
    {error : DecodeError}
    (failed : outcome = .error error) :
    error.isFinal := by
  induction runs with
  | leave outside =>
      cases failed
      rfl
  | goOn found moved later induction => exact induction failed
  | @stop state entry outcome found ended =>
      subst failed
      cases entry with
      | filter | require | expect => cases ended
      | fail =>
          cases ended
          rfl
      | decode opcode format =>
          simp only [visit, finishDecode] at ended
          split at ended
          · cases ended
            rfl
          · cases ended
      | extract | check =>
          simp only [visit] at ended
          split at ended
          · cases ended
            rfl
          · cases ended

namespace Engine

variable
  {engine : Engine}
  {input : List UInt8}
  {address : Address}
  {wantDetail : Bool}

/-- A word that does not decode would not with more input. -/
theorem isFinal_of_decodeWord
    {word : Word}
    {error : DecodeError}
    (failed : engine.decodeWord word wantDetail = .error error) :
    error.isFinal := by
  rw [decodeWord] at failed
  split at failed
  · next unread =>
    cases failed
    rw [decodeRaw] at unread
    split at unread
    · cases unread
      rfl
    · next table _ =>
      rcases engine.isa.exists_runs table word engine.options.features with
        ⟨visits, runs⟩
      exact runs.isFinal unread
  · rw [finishRaw] at failed
    split at failed
    · cases failed
      rfl
    · cases failed

/-- What has been decoded is described in its preferred form. -/
theorem exists_describe_of_decodeWord
    {word : Word}
    {decoded : Decoded}
    (success : engine.decodeWord word wantDetail = .ok decoded) :
    ∃ raw info,
      engine.decodeRaw word = .ok raw ∧
        engine.isa.info?
            (Alias.canonicalize engine.isa.aliases raw.form).opcode =
          some info ∧
        decoded =
          { instruction :=
              engine.describe word
                (Alias.canonicalize engine.isa.aliases raw.form) info
                raw.specifics wantDetail
            status := raw.status } := by
  rw [decodeWord] at success
  split at success
  · cases success
  · next raw read =>
    rw [finishRaw] at success
    split at success
    · cases success
    · next info described =>
      cases success
      exact ⟨raw, info, read, described, rfl⟩

/-- What is decoded is the first word of the input. -/
theorem exists_word_of_decodeWith
    {decoded : Decoded}
    (success : engine.decodeWith input address wantDetail = .ok decoded) :
    ∃ word,
      engine.readWord input address = .ok word ∧
        engine.decodeWord word wantDetail = .ok decoded := by
  rw [decodeWith] at success
  split at success
  · cases success
  · next word read =>
    exact ⟨word, read, success⟩

/-! ## Decoding the front of an input -/

/-- The number of bytes that an input should have but has not. -/
def needed? (engine : Engine) (input : List UInt8) : Option Nat :=
  engine.isa.widthRule.needed? input

theorem decodeWith_of_needed?
    {needed : Nat}
    (short : engine.needed? input = some needed) :
    engine.decodeWith input address wantDetail =
      .error (.insufficientInput address needed input.length) := by
  rw [decodeWith, readWord, WidthRule.readWord_of_needed? short]

/-- Whatever follows the first word, the outcome is the same. -/
theorem decodeWith_append_of_needed?
    (enough : engine.needed? input = none)
    (more : List UInt8) :
    engine.decodeWith (input ++ more) address wantDetail =
      engine.decodeWith input address wantDetail := by
  rw [decodeWith, decodeWith, readWord, readWord,
    (WidthRule.readWord_append enough more).2]

theorem isFinal_of_needed?
    (enough : engine.needed? input = none)
    {error : DecodeError}
    (failed :
      engine.decodeWith input address wantDetail = .error error) :
    error.isFinal := by
  rw [decodeWith] at failed
  split at failed
  · next unread =>
    cases failed
    exact WidthRule.isFinal_of_readWord enough unread
  · exact isFinal_of_decodeWord failed

end Engine

/-! ## What a decoded instruction takes up -/

/-- Whether an instruction is the front of an input at an address. -/
structure Instruction.Heads
    (instruction : Instruction)
    (input : List UInt8)
    (address : Address) :
    Prop where
  address_eq : instruction.address = address
  size_eq : instruction.size = instruction.bytes.length
  size_pos : 0 < instruction.size
  size_le : instruction.size ≤ Word.maxSize
  bytes_eq : instruction.bytes = input.take instruction.size
  isCode : instruction.opcode.isSome

/-- What is decoded stands at the front of the input. -/
theorem Engine.heads_of_decodeWith
    {engine : Engine}
    {input : List UInt8}
    {address : Address}
    {wantDetail : Bool}
    {decoded : Decoded}
    (success :
      engine.decodeWith input address wantDetail = .ok decoded) :
    decoded.instruction.Heads input address := by
  rcases exists_word_of_decodeWith success with ⟨word, read, success⟩
  have heads := WidthRule.heads_of_readWord read
  rcases exists_describe_of_decodeWord success with ⟨raw, info, -, -, rfl⟩
  exact
    { address_eq := heads.address_eq
      size_eq := rfl
      size_pos := word.size_pos
      size_le := heads.size_le
      bytes_eq := heads.bytes_eq
      isCode := rfl }

end MachineCode
