import MachineCode.Table.Meaning

/-!
# The visits of a run

A run of a table, told as the moves of a machine: a cursor into the entries,
the register for the loaded field, and the flag for a violated expectation.
`Isa.Runs` lists the entries that are visited, each with the state in which it
is visited. `Isa.run` gives the outcome of exactly one such list
(`Isa.exists_runs`, `Isa.Runs.unique`), and the cursor only grows along it.
-/

namespace MachineCode

/-- What a run carries from one entry to the next. -/
structure RunState where
  /-- The cursor: the place of the entry to be visited. -/
  position : Nat
  /-- The field register. -/
  field : Nat
  /-- Whether an expectation was violated. -/
  violated : Bool
deriving DecidableEq, Repr

namespace RunState

/-- The state before the first visit. -/
def initial : RunState :=
  ⟨0, 0, false⟩

/-- Go to the entry behind, or past `skip` more if a test failed. -/
def advance (state : RunState) (holds : Bool) (skip : Nat) : RunState :=
  { state with
    position := state.position + 1 + if holds then 0 else skip }

end RunState

/-- A visited entry, with the state in which it is visited. -/
structure Visit where
  state : RunState
  entry : Entry
deriving DecidableEq, Repr

/-- What follows a visit. -/
inductive Continuation where
  | goOn (state : RunState)
  | stop (outcome : Outcome)

namespace Isa

/-- Visit one entry. -/
def visit
    (isa : Isa)
    (features : Features)
    (name : String)
    (word : Word)
    (state : RunState) :
    Entry → Continuation
  | .extract start length =>
    match word.field? start length with
    | none => .stop (.error (.malformedTable name state.position))
    | some loaded => .goOn { state.advance true 0 with field := loaded }
  | .filter value skip => .goOn (state.advance (state.field = value) skip)
  | .check start length value skip =>
    match word.field? start length with
    | none => .stop (.error (.malformedTable name state.position))
    | some found => .goOn (state.advance (found = value) skip)
  | .require predicate skip =>
    .goOn (state.advance (isa.grants predicate features) skip)
  | .expect zeros ones =>
    .goOn
      { state.advance true 0 with
        violated := state.violated || violates word.value zeros ones }
  | .decode opcode format =>
    .stop (isa.finishDecode word opcode format state.violated)
  | .fail => .stop (.error (.unknownOpcode word.address word.bytes))

/-- The visits from a state on, and the outcome that they lead to. -/
inductive Runs
    (isa : Isa)
    (table : Table)
    (word : Word)
    (features : Features) :
    RunState → List Visit → Outcome → Prop where
  /-- There is no entry where the cursor stands. -/
  | leave {state : RunState}
      (outside : table.get? state.position = none) :
      Runs isa table word features state []
        (.error (.malformedTable table.name state.position))
  | stop {state : RunState} {entry : Entry}
      {outcome : Outcome}
      (found : table.get? state.position = some entry)
      (ended :
        isa.visit features table.name word state entry = .stop outcome) :
      Runs isa table word features state [⟨state, entry⟩] outcome
  | goOn {state next : RunState} {entry : Entry} {visits : List Visit}
      {outcome : Outcome}
      (found : table.get? state.position = some entry)
      (moved : isa.visit features table.name word state entry = .goOn next)
      (later : Runs isa table word features next visits outcome) :
      Runs isa table word features state (⟨state, entry⟩ :: visits) outcome

variable
  {isa : Isa}
  {table : Table}
  {word : Word}
  {features : Features}
  {state next : RunState}
  {entry : Entry}
  {visits : List Visit}
  {outcome : Outcome}

/-! ## The cursor -/

/-- A visit moves the cursor forwards. -/
theorem position_lt_of_visit
    {name : String}
    (moved : isa.visit features name word state entry = .goOn next) :
    state.position < next.position := by
  cases entry with
  | decode | fail => cases moved
  | extract start length | check start length value skip =>
      simp only [visit] at moved
      split at moved
      · cases moved
      · cases moved
        simp only [RunState.advance]
        omega
  | filter | require | expect =>
      cases moved
      simp only [RunState.advance]
      omega

/-- Every visit of a run is where the run starts or behind it. -/
theorem Runs.position_le
    (runs : isa.Runs table word features state visits outcome) :
    ∀ visit ∈ visits, state.position ≤ visit.state.position := by
  induction runs with
  | leave outside => simp
  | stop found ended => simp
  | goOn found moved later induction =>
      rw [List.forall_mem_cons]
      refine ⟨Nat.le_refl _, fun visit member => ?_⟩
      exact Nat.le_trans (Nat.le_of_lt (position_lt_of_visit moved))
        (induction visit member)

/-- The cursor grows from each visit to the next. -/
theorem Runs.pairwise_position_lt
    (runs : isa.Runs table word features state visits outcome) :
    visits.Pairwise fun earlier later =>
      earlier.state.position < later.state.position := by
  induction runs with
  | leave outside => exact List.Pairwise.nil
  | stop found ended => exact List.pairwise_singleton _ _
  | goOn found moved later induction =>
      refine List.Pairwise.cons (fun visit member => ?_) induction
      exact Nat.lt_of_lt_of_le (position_lt_of_visit moved)
        (later.position_le visit member)

/-- No more entries are visited than stand from the cursor on. -/
theorem Runs.length_le
    (runs : isa.Runs table word features state visits outcome) :
    visits.length ≤ table.size - state.position := by
  induction runs with
  | leave outside => simp
  | stop found ended =>
      have inside := (List.getElem?_eq_some_iff.mp found).1
      simp only [List.length_singleton, Table.size]
      omega
  | goOn found moved later induction =>
      have inside := (List.getElem?_eq_some_iff.mp found).1
      have moves := position_lt_of_visit moved
      simp only [List.length_cons, Table.size] at induction ⊢
      omega

/-! ## One list of visits for each run -/

theorem Runs.unique
    (runs : isa.Runs table word features state visits outcome)
    {otherVisits : List Visit}
    {otherOutcome : Outcome}
    (other : isa.Runs table word features state otherVisits otherOutcome) :
    otherVisits = visits ∧ otherOutcome = outcome := by
  induction runs generalizing otherVisits with
  | leave outside =>
      cases other with
      | leave => exact ⟨rfl, rfl⟩
      | stop found | goOn found => simp [outside] at found
  | stop found ended =>
      cases other with
      | leave outside => simp [outside] at found
      | stop otherFound otherEnded =>
          cases found.symm.trans otherFound
          cases ended.symm.trans otherEnded
          exact ⟨rfl, rfl⟩
      | goOn otherFound moved =>
          cases found.symm.trans otherFound
          cases ended.symm.trans moved
  | goOn found moved later induction =>
      cases other with
      | leave outside => simp [outside] at found
      | stop otherFound ended =>
          cases found.symm.trans otherFound
          cases ended.symm.trans moved
      | goOn otherFound otherMoved otherLater =>
          cases found.symm.trans otherFound
          cases moved.symm.trans otherMoved
          rcases induction otherLater with ⟨sameVisits, sameOutcome⟩
          exact ⟨by rw [sameVisits], sameOutcome⟩

/-- The pass over the entries makes the visit of the entry that it is at. -/
theorem runEntries_cons
    (name : String)
    (entry : Entry)
    (entries : List Entry)
    (state : RunState) :
    isa.runEntries features name word (entry :: entries) 0 state.position
        state.field state.violated =
      match isa.visit features name word state entry with
      | .stop outcome => outcome
      | .goOn next =>
        isa.runEntries features name word entries
          (next.position - (state.position + 1)) (state.position + 1)
          next.field next.violated := by
  cases entry with
  | extract start length | check start length value skip =>
      simp only [runEntries, visit]
      cases word.field? start length <;> simp [RunState.advance]
  | filter | require | expect =>
      simp [runEntries, visit, RunState.advance]
  | decode | fail => rfl

/--
The pass over the entries from a position on is the machine whose cursor
stands as many entries further as are still to be skipped.
-/
theorem exists_runs_runEntries
    (entries : List Entry)
    (pending position field : Nat)
    (violated : Bool)
    (suffix : table.entries.drop position = entries) :
    ∃ visits,
      isa.Runs table word features ⟨position + pending, field, violated⟩
        visits
        (isa.runEntries features table.name word entries pending position
          field violated) := by
  induction entries generalizing pending position field violated with
  | nil =>
      have short : table.entries.length ≤ position :=
        List.drop_eq_nil_iff.mp suffix
      have outside : table.get? (position + pending) = none :=
        List.getElem?_eq_none (by omega)
      exact ⟨[], @Runs.leave isa table word features
        ⟨position + pending, field, violated⟩ outside⟩
  | cons entry entries induction =>
      have tail : table.entries.drop (position + 1) = entries := by
        rw [← List.tail_drop, suffix, List.tail_cons]
      cases pending with
      | succ pending =>
          rcases induction pending (position + 1) field violated tail with
            ⟨visits, runs⟩
          refine ⟨visits, ?_⟩
          have same : position + (pending + 1) = position + 1 + pending := by
            omega
          rw [same]
          exact runs
      | zero =>
          have found : table.get? position = some entry := by
            have head := congrArg (fun list => list[0]?) suffix
            simpa [Table.get?] using head
          have pass := @runEntries_cons isa word features table.name entry
            entries ⟨position, field, violated⟩
          cases moved : isa.visit features table.name word
              ⟨position, field, violated⟩ entry with
          | stop outcome =>
              simp only [moved] at pass
              rw [pass]
              exact ⟨_, Runs.stop found moved⟩
          | goOn next =>
              simp only [moved] at pass
              rw [pass]
              have moves := position_lt_of_visit moved
              rcases
                  induction (next.position - (position + 1)) (position + 1)
                    next.field next.violated tail with
                ⟨visits, runs⟩
              have same :
                  position + 1 + (next.position - (position + 1)) =
                    next.position := by
                simp only at moves
                omega
              rw [same] at runs
              exact ⟨_, Runs.goOn found moved runs⟩

/-- The outcome of a run is that of its visits. -/
theorem exists_runs
    (isa : Isa)
    (table : Table)
    (word : Word)
    (features : Features) :
    ∃ visits,
      isa.Runs table word features .initial visits
        (isa.run table word features) :=
  exists_runs_runEntries table.entries 0 0 0 false rfl

/-! ## What a run asks of the instruction set -/

/--
Instruction sets that agree on the formats and predicates of the visited
entries make the same visits.
-/
theorem Runs.congr
    {other : Isa}
    (runs : isa.Runs table word features state visits outcome)
    (sameFormats :
      ∀ visit ∈ visits, ∀ opcode format,
        visit.entry = .decode opcode format →
          other.readOperands format = isa.readOperands format)
    (samePredicates :
      ∀ visit ∈ visits, ∀ predicate skip,
        visit.entry = .require predicate skip →
          other.grants predicate = isa.grants predicate) :
    other.Runs table word features state visits outcome := by
  induction runs with
  | leave outside => exact .leave outside
  | @stop state entry outcome found ended =>
      refine .stop found ?_
      rw [← ended]
      cases entry with
      | decode opcode format =>
          have same := sameFormats _ (List.mem_singleton_self _) _ _ rfl
          simp only [visit, finishDecode, same]
      | require predicate skip => cases ended
      | extract | filter | check | expect | fail => rfl
  | @goOn state next entry visits outcome found moved later induction =>
      rw [List.forall_mem_cons] at sameFormats samePredicates
      refine .goOn found ?_ (induction sameFormats.2 samePredicates.2)
      rw [← moved]
      cases entry with
      | require predicate skip =>
          have same := samePredicates.1 _ _ rfl
          simp only [visit, same]
      | decode opcode format => cases moved
      | extract | filter | check | expect | fail => rfl

end Isa

end MachineCode
