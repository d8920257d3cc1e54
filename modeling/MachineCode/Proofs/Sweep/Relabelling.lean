import MachineCode.Description
import MachineCode.Proofs.FirstWord
import MachineCode.Proofs.PreferredTouch
import MachineCode.Proofs.Sweep.Stops

/-!
# Showing data only relabels failures

A user may ask a sweep to show the bytes that do not decode as data instead of
reporting the error. Both sweeps stop at the same offsets, take up as many
bytes at each, and decode the same instructions; where one reports an error,
the other has the bytes given up there (`Engine.sweep_showingData`).

The text of an instruction is made by its instruction set, which is given all
options, and so may say how failures are shown
(`Engine.not_sweepsAlike_mentioningData`). Nothing but the text may. The
families and the described instruction sets look at other options only
(`Architecture.ignoresData`, `Description.ignoresData`), so that they tell the
same instruction in the same words.
-/

namespace MachineCode

/-- Whether texts are the same however bytes that do not decode are shown. -/
def Isa.IgnoresData (isa : Isa) : Prop :=
  ∀ form specifics options shows mnemonic,
    isa.render form specifics
        { options with skipData := shows, dataMnemonic := mnemonic } =
      isa.render form specifics options

theorem Architecture.ignoresData
    {architecture : Architecture}
    {isa : Isa}
    (known : architecture.isa? = some isa) :
    isa.IgnoresData := by
  cases architecture with
  | arm64 | riscV64 | riscV32 | c64x =>
      cases known
      intro form specifics options shows mnemonic
      rfl
  | unknown => cases known

theorem Description.ignoresData (description : Description) :
    description.isa.IgnoresData :=
  fun _ _ _ _ _ => rfl

namespace Instruction

/-- The same instruction with another text. -/
def withText (instruction : Instruction) (text : Rendering) : Instruction :=
  { instruction with
    leading := text.leading
    operandText := text.operandText }

/-- Whether instructions are the same, but for the text of one of them. -/
def SameButText (left right : Instruction) : Prop :=
  ∃ text, right = left.withText text

end Instruction

/--
Whether an instruction set may tell an instruction as either of the two, if
only the way in which failures are shown is changed.
-/
def Isa.Retells (isa : Isa) (left right : Instruction) : Prop :=
  left.SameButText right ∧ (isa.IgnoresData → left = right)

namespace Engine

/-- The engine with errors reported where nothing decodes. -/
def reportingErrors (engine : Engine) : Engine :=
  { engine with options := { engine.options with skipData := false } }

/-- The engine with data shown where nothing decodes. -/
def showingData (engine : Engine) (mnemonic : String) : Engine :=
  { engine with
    options :=
      { engine.options with skipData := true, dataMnemonic := mnemonic } }

/-! ## One decoding -/

/-- The same outcome, up to a relation of the decoded instructions. -/
inductive SameOutcome (same : Instruction → Instruction → Prop) :
    (reported shown : Except DecodeError Decoded) → Prop where
  | failed {error : DecodeError} :
      SameOutcome same (.error error) (.error error)
  | decoded {reported shown : Instruction} {status : DecodeStatus}
      (alike : same reported shown) :
      SameOutcome same (.ok ⟨reported, status⟩) (.ok ⟨shown, status⟩)

variable
  {engine : Engine}
  {mnemonic : String}

theorem sameOutcome_finishRaw
    (word : Word)
    (raw : RawInstruction)
    (wantDetail : Bool) :
    SameOutcome engine.isa.Retells
      (engine.reportingErrors.finishRaw word raw wantDetail)
      ((engine.showingData mnemonic).finishRaw word raw wantDetail) := by
  simp only [finishRaw, reportingErrors, showingData]
  split
  · exact .failed
  · next info described =>
    refine .decoded ⟨⟨_, rfl⟩, fun ignores => ?_⟩
    let form := Alias.canonicalize engine.isa.aliases raw.form
    have shown := ignores form raw.specifics engine.options true mnemonic
    have reported :=
      ignores form raw.specifics engine.options false
        engine.options.dataMnemonic
    let instruction :=
      engine.reportingErrors.describe word form info raw.specifics wantDetail
    exact congrArg instruction.withText (reported.trans shown.symm)

variable {input : List UInt8} {address : Address}

theorem sameOutcome_decode
    (engine : Engine)
    (mnemonic : String)
    (input : List UInt8)
    (address : Address) :
    SameOutcome engine.isa.Retells
      (engine.reportingErrors.decode input address)
      ((engine.showingData mnemonic).decode input address) := by
  have sameWord :
      (engine.showingData mnemonic).readWord input address =
        engine.reportingErrors.readWord input address := rfl
  rw [decode, decode, decodeWith, decodeWith, sameWord]
  split
  · exact .failed
  next word _ =>
  have sameRaw :
      (engine.showingData mnemonic).decodeRaw word =
        engine.reportingErrors.decodeRaw word := rfl
  rw [decodeWord, decodeWord, sameRaw]
  split
  · exact .failed
  · next raw _ => exact sameOutcome_finishRaw word raw _

/-! ## One place -/

/--
What two sweeps make of one place: instructions that are the `same`, or an
error on one side and on the other the bytes that were given up.
-/
inductive Relabels
    (same : Instruction → Instruction → Prop)
    (engine : Engine)
    (input : List UInt8)
    (address : Address) :
    (reported shown : Step) → Prop where
  | code {consumed : Nat} {instruction shown : Instruction}
      {status : DecodeStatus}
      (decoded : engine.decode input address = .ok ⟨instruction, status⟩)
      (alike : same instruction shown) :
      Relabels same engine input address ⟨consumed, .ok instruction⟩
        ⟨consumed, .ok shown⟩
  | data {consumed : Nat} {error : DecodeError} {data : Instruction}
      (failed : engine.decode input address = .error error)
      (isData : data.opcode = none)
      (goesOn : data.controlFlow = .sequential)
      (address_eq : data.address = address)
      (bytes_eq : data.bytes = input.take consumed)
      (length_eq : data.bytes.length = consumed)
      (size_eq : data.size = consumed) :
      Relabels same engine input address ⟨consumed, .error error⟩
        ⟨consumed, .ok data⟩

namespace Relabels

variable
  {same other : Instruction → Instruction → Prop}
  {reported shown : Step}

theorem consumed_eq
    (relabels : Relabels same engine input address reported shown) :
    shown.consumed = reported.consumed := by
  cases relabels <;> rfl

theorem mono
    (weaker : ∀ {left right : Instruction}, same left right → other left right)
    (relabels : Relabels same engine input address reported shown) :
    Relabels other engine input address reported shown := by
  cases relabels with
  | code decoded alike => exact .code decoded (weaker alike)
  | data failed isData goesOn address_eq bytes_eq length_eq size_eq =>
      exact .data failed isData goesOn address_eq bytes_eq length_eq size_eq

/-- Where both sides have an instruction, these are the same. -/
theorem same_of_decode
    (relabels : Relabels same engine input address reported shown)
    {decoded : Decoded}
    (success : engine.decode input address = .ok decoded)
    {instruction : Instruction}
    (item : shown.item = .ok instruction) :
    same decoded.instruction instruction := by
  cases relabels with
  | code known alike =>
      cases known.symm.trans success
      cases item
      exact alike
  | data failed => cases failed.symm.trans success

end Relabels

/-- Where something is left, a step is only relabelled. -/
theorem relabels_step
    (engine : Engine)
    (mnemonic : String)
    (nonempty : input ≠ [])
    (address : Address) :
    Relabels engine.isa.Retells engine.reportingErrors input address
      (engine.reportingErrors.step input address)
      ((engine.showingData mnemonic).step input address) := by
  have same := engine.sameOutcome_decode mnemonic input address
  generalize reports : engine.reportingErrors.decode input address = reported
    at same
  generalize shows : (engine.showingData mnemonic).decode input address = shown
    at same
  cases same with
  | @decoded reported shown status alike =>
      have sameSize : shown.size = reported.size := by
        rcases alike.1 with ⟨text, rfl⟩
        rfl
      rw [step_of_decode reports, step_of_decode shows, sameSize]
      exact .code reports alike
  | failed =>
      have length :
          (input.take (engine.giveUp input)).length = engine.giveUp input :=
        length_take_giveUp nonempty
      rw [step_of_error nonempty reports, step_of_error nonempty shows]
      exact .data reports rfl rfl rfl rfl length length

/-! ## Whole sweeps -/

theorem stops_showingData
    (engine : Engine)
    (mnemonic : String)
    (input : List UInt8)
    (start : Address) :
    (engine.showingData mnemonic).stops input start =
      engine.reportingErrors.stops input start :=
  Cursor.stops_withEngine { engine := engine.reportingErrors, input, start }
    fun _ address nonempty =>
      (engine.relabels_step mnemonic nonempty address).consumed_eq

/--
How a sweep that reports errors and one that shows data compare, if they
decode instructions that are the `same`.
-/
structure SweepsAlike
    (same : Instruction → Instruction → Prop)
    (engine : Engine)
    (mnemonic : String)
    (input : List UInt8)
    (start : Address) :
    Prop where
  length_eq :
    ((engine.showingData mnemonic).sweep input start).length =
      (engine.reportingErrors.sweep input start).length
  stops_eq :
    (engine.showingData mnemonic).stops input start =
      engine.reportingErrors.stops input start
  /-- Each sweep has one item for each offset at which it stops. -/
  reported_eq :
    engine.reportingErrors.sweep input start =
      (engine.reportingErrors.stops input start).map fun offset =>
        (engine.reportingErrors.stepAt input start offset).item
  shown_eq :
    (engine.showingData mnemonic).sweep input start =
      (engine.reportingErrors.stops input start).map fun offset =>
        ((engine.showingData mnemonic).stepAt input start offset).item
  consumed_eq :
    ∀ offset ∈ engine.reportingErrors.stops input start,
      ((engine.showingData mnemonic).stepAt input start offset).consumed =
        (engine.reportingErrors.stepAt input start offset).consumed
  relabels :
    ∀ offset ∈ engine.reportingErrors.stops input start,
      Relabels same engine.reportingErrors (input.drop offset)
        (start.advance offset)
        (engine.reportingErrors.stepAt input start offset)
        ((engine.showingData mnemonic).stepAt input start offset)

theorem SweepsAlike.mono
    {same other : Instruction → Instruction → Prop}
    {start : Address}
    (alike : SweepsAlike same engine mnemonic input start)
    (weaker :
      ∀ {left right : Instruction}, same left right → other left right) :
    SweepsAlike other engine mnemonic input start :=
  { alike with
    relabels := fun offset stop => (alike.relabels offset stop).mono weaker }

theorem relabels_stepAt
    (engine : Engine)
    (mnemonic : String)
    {start : Address}
    {offset : Nat}
    (stop : offset ∈ engine.reportingErrors.stops input start) :
    Relabels engine.isa.Retells engine.reportingErrors (input.drop offset)
      (start.advance offset)
      (engine.reportingErrors.stepAt input start offset)
      ((engine.showingData mnemonic).stepAt input start offset) := by
  have nonempty : input.drop offset ≠ [] :=
    Cursor.drop_ne_nil_of_mem_stops stop
  exact engine.relabels_step mnemonic nonempty (start.advance offset)

theorem sweepsAlike_retells
    (engine : Engine)
    (mnemonic : String)
    (input : List UInt8)
    (start : Address) :
    SweepsAlike engine.isa.Retells engine mnemonic input start := by
  have sameStops := engine.stops_showingData mnemonic input start
  have reported := engine.reportingErrors.sweep_eq_map_stops input start
  have shown := (engine.showingData mnemonic).sweep_eq_map_stops input start
  rw [sameStops] at shown
  constructor
  case length_eq => rw [reported, shown, List.length_map, List.length_map]
  case stops_eq => exact sameStops
  case reported_eq => exact reported
  case shown_eq => exact shown
  case consumed_eq =>
    intro offset stop
    exact (engine.relabels_stepAt mnemonic stop).consumed_eq
  case relabels =>
    intro offset stop
    exact engine.relabels_stepAt mnemonic stop

/--
Two sweeps of an input, one reporting errors and one showing data, have as
many items. Both stop at the same offsets and take up as many bytes at each,
and the items there are the same but for relabelled failures. Instructions may
differ in their text, and do not if the instruction set ignores how failures
are shown, as the families and the described instruction sets do.
-/
theorem sweep_showingData
    (engine : Engine)
    (mnemonic : String)
    (input : List UInt8)
    (start : Address) :
    SweepsAlike Instruction.SameButText engine mnemonic input start ∧
      (engine.isa.IgnoresData →
        SweepsAlike Eq engine mnemonic input start) ∧
      (∀ architecture : Architecture,
        architecture.isa? = some engine.isa → engine.isa.IgnoresData) ∧
      ∀ description : Description,
        engine.isa = description.isa → engine.isa.IgnoresData := by
  have alike := engine.sweepsAlike_retells mnemonic input start
  refine ⟨alike.mono And.left, fun ignores => ?equal,
    fun _ known => Architecture.ignoresData known, ?described⟩
  case equal => exact alike.mono fun retells => retells.2 ignores
  case described =>
    intro description same
    rw [same]
    exact description.ignoresData

/-! ## Texts that say how failures are shown -/

/-- An instruction set of one instruction, which is read off any byte. -/
def singleInstruction : Description :=
  { architecture := .unknown 0
    widthRule := .fixed 1
    tables := [(1, { name := "single", width := 8, entries := [.decode 0 0] })]
    formats := [[]]
    predicates := []
    infos := [{ mnemonic := "nop", operation := .nop }]
    aliases := [] }

/-- The same instruction set with a text that says whether data is shown. -/
def mentioningData : Isa :=
  { singleInstruction.isa with
    render := fun _ _ options =>
      { operandText := if options.skipData then "shown" else "reported" } }

/-- Instructions may differ in a text that says how failures are shown. -/
theorem not_sweepsAlike_mentioningData :
    ¬ SweepsAlike Eq ⟨mentioningData, {}⟩ ".byte" [0] 0 := by
  intro alike
  have first : 0 ∈ stops (reportingErrors ⟨mentioningData, {}⟩) [0] 0 := by
    rw [stops, Cursor.stops_of_remaining_ne_nil (by decide)]
    exact List.mem_cons_self
  have reported :
      decode (reportingErrors ⟨mentioningData, {}⟩) [0] 0 = .ok _ := rfl
  have same := (alike.relabels 0 first).same_of_decode reported rfl
  exact absurd (congrArg Instruction.operandText same) (by decide)

end Engine

end MachineCode
