import MachineCode.Proofs.Table.Trace
import MachineCode.Proofs.Table.Validity
import MachineCode.RiscV.InstructionSet

/-!
# Valid tables run safely

The check of a table is one pass over its entries; a run visits some of them.
`Reached` says what the pass knows of the state in which an entry is visited:
it finds no fault from that entry on, and it expects the width of the field
that the visits before loaded last. One visit keeps this (`Reached.visit`),
and so does a whole run.
-/

namespace MachineCode

/-! ## What the visits before have loaded -/

/--
Whether `field` is the field of `width` bits of the word that the visits have
loaded last.
-/
def LoadedLast (word : Word) (visits : List Visit) (width field : Nat) :
    Prop :=
  ∃ earlier load later start,
    visits = earlier ++ load :: later ∧
      load.entry = .extract start width ∧
      word.field? start width = some field ∧
      ∀ visit ∈ later, ∀ start length, visit.entry ≠ .extract start length

theorem LoadedLast.append
    {word : Word}
    {visits : List Visit}
    {width field : Nat}
    (loaded : LoadedLast word visits width field)
    {visit : Visit}
    (noLoad : ∀ start length, visit.entry ≠ .extract start length) :
    LoadedLast word (visits ++ [visit]) width field := by
  rcases loaded with
    ⟨earlier, load, later, start, rfl, isLoad, found, noLater⟩
  refine ⟨earlier, load, later ++ [visit], start, ?_, isLoad, found, ?_⟩
  · simp
  · intro other member
    rcases List.mem_append.mp member with member | member
    · exact noLater other member
    · rw [List.mem_singleton.mp member]
      exact noLoad

theorem loadedLast_append_extract
    {word : Word}
    {visits : List Visit}
    {start width field : Nat}
    (found : word.field? start width = some field)
    (state : RunState) :
    LoadedLast word (visits ++ [⟨state, .extract start width⟩]) width field :=
  ⟨visits, _, [], start, rfl, rfl, found, by simp⟩

/-- Whether the last visit is an expectation that the word violates first. -/
def ViolatedLast (word : Word) (visits : List Visit) : Prop :=
  ∃ earlier state zeros ones,
    visits = earlier ++ [⟨state, .expect zeros ones⟩] ∧
      state.violated = false ∧
      violates word.value zeros ones

/-! ## The facts about one visit -/

/-- What a valid table guarantees of a visit, from the visits around it. -/
structure Visit.Safe
    (word : Word)
    (formats predicates : Nat)
    (before : List Visit)
    (visit : Visit)
    (after : List Visit) :
    Prop where
  /-- A compared field was loaded earlier. -/
  loaded : ∀ value skip, visit.entry = .filter value skip →
    ∃ width, LoadedLast word before width visit.state.field
  /-- Operands are read in a format that exists. -/
  format : ∀ opcode format, visit.entry = .decode opcode format →
    format < formats
  /-- A predicate that is asked for exists. -/
  predicate : ∀ predicate skip, visit.entry = .require predicate skip →
    predicate < predicates
  /-- The flag is set only by the visit just before the final `decode`. -/
  flag : visit.state.violated →
    after = [] ∧ visit.entry.isDecode ∧ ViolatedLast word before

/-! ## What the check knows of a state -/

section Reached

variable
  {isa : Isa}
  {table : Table}
  {word : Word}
  {features : Features}
  {formats predicates : Nat}
  {before : List Visit}
  {state next : RunState}
  {entry : Entry}

/--
Whether the check covers a state that the visits before have led to: no fault
lies ahead, the width of the loaded field is expected, and a violated
expectation is followed by its `decode`.
-/
structure Reached
    (table : Table)
    (word : Word)
    (formats predicates : Nat)
    (before : List Visit)
    (state : RunState) :
    Prop where
  covered : ∃ sets width,
    (table.limits formats predicates).Clear state.position
        (table.entries.drop state.position) sets ∧
      Table.WidthSet.Expects sets 0 width ∧
      (width = 0 ∨ LoadedLast word before width state.field)
  flagged : state.violated → ViolatedLast word before ∧
    ∃ opcode format, table.get? state.position = some (.decode opcode format)

theorem reached_initial
    (valid : table.validate formats predicates = .ok ()) :
    Reached table word formats predicates [] .initial where
  covered := by
    rcases Table.exists_clear_of_validate valid with ⟨sets, clear, expected⟩
    exact ⟨sets, 0, clear, expected, .inl rfl⟩
  flagged := by simp [RunState.initial]

/-- What the check has established at the entry where a state stands. -/
theorem Reached.exists_sets
    (reached : Reached table word formats predicates before state)
    (found : table.get? state.position = some entry) :
    ∃ widths ahead width,
      (table.limits formats predicates).Clear state.position
          (entry :: table.entries.drop (state.position + 1))
          (widths :: ahead) ∧
        widths.testBit width ∧
        (width = 0 ∨ LoadedLast word before width state.field) := by
  rcases reached.covered with ⟨sets, width, clear, expected, loaded⟩
  have inside := List.getElem?_eq_some_iff.mp found
  rw [List.drop_eq_getElem_cons inside.1, inside.2] at clear
  cases sets with
  | nil => simpa using clear.lengths
  | cons widths ahead =>
      exact ⟨widths, ahead, width, clear, expected.head, loaded⟩

theorem Reached.position_lt
    (reached : Reached table word formats predicates before state) :
    state.position < table.entries.length := by
  rcases reached.covered with ⟨sets, width, clear, expected, -⟩
  have lengths := clear.lengths
  have inside := expected.lt_length
  rw [List.length_drop] at lengths
  omega

/-- Only a `decode` is visited while an expectation is violated. -/
theorem Reached.calm
    (reached : Reached table word formats predicates before state)
    (found : table.get? state.position = some entry)
    (open_ : entry.isTerminal = false) :
    state.violated = false := by
  by_contra violated
  obtain ⟨-, opcode, format, decodes⟩ :=
    reached.flagged (by simpa using violated)
  cases found.symm.trans decodes
  cases open_

/-- Behind an entry that goes on, a valid table has another one. -/
theorem drop_ne_nil_of_validate
    (valid : table.validate formats predicates = .ok ())
    {position : Nat}
    (found : table.get? position = some entry)
    (open_ : entry.isTerminal = false) :
    table.entries.drop (position + 1) ≠ [] := by
  rcases Table.exists_getLast?_of_validate valid with
    ⟨last, foundLast, terminal⟩
  intro empty
  rcases List.getElem?_eq_some_iff.mp found with ⟨inside, -⟩
  have short := List.drop_eq_nil_iff.mp empty
  rw [List.getLast?_eq_getElem?] at foundLast
  have same : table.entries.length - 1 = position := by omega
  rw [same] at foundLast
  cases found.symm.trans foundLast
  rw [open_] at terminal
  cases terminal

/-- The check covers what follows a test, whether the test holds or not. -/
theorem Reached.advance
    (reached : Reached table word formats predicates before state)
    (valid : table.validate formats predicates = .ok ())
    (found : table.get? state.position = some entry)
    {skip : Nat}
    (skips : entry.skip? = some skip)
    (holds : Bool) :
    Reached table word formats predicates (before ++ [⟨state, entry⟩])
      (state.advance holds skip) := by
  have noLoad : ∀ start length, entry ≠ .extract start length := by
    rintro start length rfl
    cases skips
  have keeps : ∀ widths, Table.Limits.widthsAfter widths entry = widths := by
    intro widths
    cases entry <;> first | rfl | cases skips
  have open_ : entry.isTerminal = false := by
    cases entry <;> first | rfl | cases skips
  have calm := reached.calm found open_
  rcases reached.exists_sets found with
    ⟨widths, ahead, width, clear, member, loaded⟩
  refine ⟨?_, by simp [RunState.advance, calm]⟩
  have loaded' : width = 0 ∨
      LoadedLast word (before ++ [⟨state, entry⟩]) width state.field :=
    loaded.imp_right fun loaded => loaded.append noLoad
  cases holds with
  | true =>
      refine ⟨_, width, clear.tail, ?_, loaded'⟩
      refine clear.expects_next
        (drop_ne_nil_of_validate valid found open_) ?_
      rw [keeps]
      exact member
  | false =>
      rcases clear.tail.drop (clear.expects_skip skips member) with
        ⟨sets, clearThere, expected⟩
      rw [List.drop_drop] at clearThere
      exact ⟨sets, width, clearThere, expected, loaded'⟩

/-- One visit leads from a covered state to a covered state. -/
theorem Reached.visit
    (reached : Reached table word formats predicates before state)
    (valid : table.validate formats predicates = .ok ())
    (found : table.get? state.position = some entry)
    (moved :
      isa.visit features table.name word state entry = .goOn next) :
    Reached table word formats predicates (before ++ [⟨state, entry⟩])
      next := by
  cases entry with
  | decode | fail => cases moved
  | filter value skip | require predicate skip =>
      cases moved
      exact reached.advance valid found rfl _
  | check start length value skip =>
      simp only [Isa.visit] at moved
      split at moved
      · cases moved
      · cases moved
        exact reached.advance valid found rfl _
  | extract start length =>
      rcases reached.exists_sets found with
        ⟨widths, ahead, width, clear, -, -⟩
      have calm := reached.calm found rfl
      simp only [Isa.visit] at moved
      split at moved
      · cases moved
      · next loaded fieldFound =>
        cases moved
        refine ⟨⟨_, length, clear.tail, ?_, ?_⟩, ?_⟩
        · refine clear.expects_next
            (drop_ne_nil_of_validate valid found rfl) ?_
          exact Nat.testBit_two_pow_self
        · exact .inr (loadedLast_append_extract fieldFound state)
        · simp [RunState.advance, calm]
  | expect zeros ones =>
      rcases reached.exists_sets found with
        ⟨widths, ahead, width, clear, member, loaded⟩
      have calm := reached.calm found rfl
      have next := drop_ne_nil_of_validate valid found rfl
      cases moved
      refine ⟨⟨_, width, clear.tail, clear.expects_next next member, ?_⟩, ?_⟩
      · exact loaded.imp_right fun loaded => loaded.append (by simp)
      · intro violated
        simp only [calm, Bool.false_or] at violated
        refine ⟨⟨before, state, zeros, ones, rfl, calm, violated⟩, ?_⟩
        rcases Table.Limits.next_of_expect clear.fault?_eq_none with
          ⟨opcode, format, decodes⟩
        refine ⟨opcode, format, ?_⟩
        rw [← decodes, List.head?_drop]
        rfl

/-- What the check guarantees of the visit of a covered state. -/
theorem Reached.safe
    (reached : Reached table word formats predicates before state)
    (found : table.get? state.position = some entry)
    {after : List Visit}
    (ends : entry.isTerminal → after = []) :
    Visit.Safe word formats predicates before ⟨state, entry⟩ after := by
  rcases reached.exists_sets found with
    ⟨widths, ahead, width, clear, member, loaded⟩
  have faultless := clear.fault?_eq_none
  refine ⟨?_, ?_, ?_, ?_⟩
  · rintro value skip rfl
    have positive := Table.Limits.width_ne_zero_of_filter faultless member
    exact ⟨width, loaded.resolve_left positive⟩
  · rintro opcode format rfl
    exact Table.Limits.format_lt_of_decode faultless
  · rintro predicate skip rfl
    exact Table.Limits.predicate_lt_of_require faultless
  · intro violated
    rcases reached.flagged violated with ⟨last, opcode, format, decodes⟩
    cases found.symm.trans decodes
    exact ⟨ends rfl, rfl, last⟩

/-- A visit of a covered state never ends outside the table or the word. -/
theorem Reached.stop_ne_malformed
    (reached : Reached table word formats predicates before state)
    (sameWidth : word.width = table.width)
    (found : table.get? state.position = some entry)
    {outcome : Outcome}
    (ended :
      isa.visit features table.name word state entry = .stop outcome)
    (name : String)
    (position : Nat) :
    outcome ≠ .error (.malformedTable name position) := by
  rcases reached.exists_sets found with ⟨widths, ahead, width, clear, -, -⟩
  have readable :=
    Table.Limits.readsWithin_of_fault?_eq_none clear.fault?_eq_none
  replace readable : entry.ReadsWithin word.width := sameWidth ▸ readable
  cases entry with
  | filter | require | expect => cases ended
  | extract start length | check start length value skip =>
      simp only [Isa.visit, Word.field?_eq_some_of_hasField readable]
        at ended
      cases ended
  | fail =>
      cases ended
      simp
  | decode opcode format =>
      cases ended
      unfold Isa.finishDecode
      split <;> simp

/-- A run from a covered state is safe at each of its visits. -/
theorem Reached.runs
    (reached : Reached table word formats predicates before state)
    (valid : table.validate formats predicates = .ok ())
    (sameWidth : word.width = table.width)
    {visits : List Visit}
    {outcome : Outcome}
    (runs : isa.Runs table word features state visits outcome) :
    (∀ name position, outcome ≠ .error (.malformedTable name position)) ∧
      ∀ earlier visit after, visits = earlier ++ visit :: after →
        visit.Safe word formats predicates (before ++ earlier) after := by
  induction runs generalizing before with
  | leave outside =>
      have inside := reached.position_lt
      have short := List.getElem?_eq_none_iff.mp outside
      omega
  | stop found ended =>
      refine ⟨reached.stop_ne_malformed sameWidth found ended, ?_⟩
      intro earlier visit after split
      cases earlier with
      | nil =>
          cases split
          rw [List.append_nil]
          exact reached.safe found fun _ => rfl
      | cons first earlier => simp at split
  | @goOn state next entry visits outcome found moved later induction =>
      have safeLater := induction (reached.visit valid found moved)
      refine ⟨safeLater.1, ?_⟩
      intro earlier visit after split
      cases earlier with
      | nil =>
          cases split
          rw [List.append_nil]
          refine reached.safe found fun terminal => ?_
          cases entry with
          | decode | fail => cases moved
          | extract | filter | check | require | expect => cases terminal
      | cons first earlier =>
          cases split
          simpa using safeLater.2 earlier visit after rfl

end Reached

/-! ## Runs of any table, and of a valid one -/

/--
Every run visits entries further and further into the table, and no more than
it has. Of a valid table and a word of its width, no run ends as malformed,
every visit is safe in the middle of the visits around it, and only formats
and predicates that exist are asked for: an instruction set that agrees on
those gives the same outcome.
-/
theorem Isa.run_safe
    (isa : Isa)
    (table : Table)
    (word : Word)
    (features : Features) :
    ∃ visits,
      isa.Runs table word features .initial visits
          (isa.run table word features) ∧
        (visits.Pairwise fun earlier later =>
          earlier.state.position < later.state.position) ∧
        visits.length ≤ table.size ∧
        ∀ formats predicates,
          table.validate formats predicates = .ok () →
          word.width = table.width →
          (∀ name position, isa.run table word features ≠
              .error (.malformedTable name position)) ∧
            (∀ before visit after, visits = before ++ visit :: after →
              visit.Safe word formats predicates before after) ∧
            ∀ other : Isa,
              (∀ format < formats,
                other.readOperands format = isa.readOperands format) →
              (∀ predicate < predicates,
                other.grants predicate = isa.grants predicate) →
              other.run table word features =
                isa.run table word features := by
  rcases isa.exists_runs table word features with ⟨visits, runs⟩
  refine ⟨visits, runs, runs.pairwise_position_lt, runs.length_le, ?_⟩
  intro formats predicates valid sameWidth
  rcases (reached_initial valid).runs valid sameWidth runs with
    ⟨wellFormed, safe⟩
  refine ⟨wellFormed, safe, fun other sameFormats samePredicates => ?_⟩
  have sameRuns : other.Runs table word features .initial visits
      (isa.run table word features) := by
    refine runs.congr ?_ ?_
    · intro visit member opcode format decodes
      rcases List.append_of_mem member with ⟨before, after, split⟩
      exact sameFormats _ ((safe before visit after split).format _ _ decodes)
    · intro visit member predicate skip asks
      rcases List.append_of_mem member with ⟨before, after, split⟩
      exact samePredicates _
        ((safe before visit after split).predicate _ _ asks)
  rcases other.exists_runs table word features with ⟨otherVisits, otherRuns⟩
  exact (sameRuns.unique otherRuns).2

/-- One field that is compared twice, and an expectation. -/
def twoCases : Table :=
  ⟨"two cases", 8,
    [.extract 6 2, .filter 1 1, .decode 0 0, .filter 2 2, .expect 0x1f 0,
      .decode 1 0, .fail]⟩

/-- A word that violates the expectation in the second case is an instance. -/
theorem Isa.run_safe_twoCases :
    twoCases.validate 1 0 = .ok () ∧
      ∃ visits,
        (RiscV.isa .rv64).Runs twoCases
            ⟨[0x81], 0, 0x81, by simp, by decide⟩ .all .initial visits
            ((RiscV.isa .rv64).run twoCases
              ⟨[0x81], 0, 0x81, by simp, by decide⟩ .all) ∧
          ∀ before visit after, visits = before ++ visit :: after →
            visit.Safe ⟨[0x81], 0, 0x81, by simp, by decide⟩ 1 0 before
              after := by
  have valid : twoCases.validate 1 0 = .ok () := rfl
  obtain ⟨visits, runs, -, -, safe⟩ := Isa.run_safe (RiscV.isa .rv64)
    twoCases ⟨[0x81], 0, 0x81, by simp, by decide⟩ .all
  exact ⟨valid, visits, runs, (safe 1 0 valid rfl).2.1⟩

end MachineCode
