import MachineCode.Proofs.Table.Layout
import Mathlib.Algebra.Group.Nat.Defs

/-!
# Which programs are accepted

A program is accepted if what it refers to exists (`Program.StaysWithin`) and
if every body that a failed test skips is short enough to be skipped
(`Program.IsSkippable`). Both are told by the statements alone; this module
shows that laying out a program and checking the table comes to the same
(`Program.finish_accepts`), and that a refusal always blames the program, never
the layout.

The check walks over the table and carries a set of widths for each entry
ahead. Between two statements it has added widths to the first set only
(`Follows`), and none to a set inside the statements ahead (`Untouched`), so
each filter finds the width of its own switch and nothing else.
-/

namespace MachineCode

/-! ## Acceptable programs -/

/-- Whether words of a width have a field, which fits the field register. -/
structure IsField (width start length : Nat) : Prop where
  nonempty : 0 < length
  loadable : length ≤ 64
  inside : start + length ≤ width

mutual

/-- Whether the statements of a program refer only to what there is. -/
def Program.StaysWithin (limits : Table.Limits) : Program → Prop
  | .done => True
  | .check start length value body rest =>
    IsField limits.width start length ∧ value < 2 ^ length ∧
      body.StaysWithin limits ∧ rest.StaysWithin limits
  | .require predicate body rest =>
    predicate < limits.predicates ∧
      body.StaysWithin limits ∧ rest.StaysWithin limits
  | .switch start length cases rest =>
    IsField limits.width start length ∧
      cases.StaysWithin limits length ∧ rest.StaysWithin limits
  | .decode _ format rest =>
    format < limits.formats ∧ rest.StaysWithin limits
  | .decodeExpecting _ format zeros ones rest =>
    zeros < 2 ^ limits.width ∧ ones < 2 ^ limits.width ∧
      format < limits.formats ∧ rest.StaysWithin limits
  | .fail rest => rest.StaysWithin limits

/-- Whether the cases of a field of some length refer to what there is. -/
def Cases.StaysWithin (limits : Table.Limits) (length : Nat) : Cases → Prop
  | .done => True
  | .case value body rest =>
    value < 2 ^ length ∧
      body.StaysWithin limits ∧ rest.StaysWithin limits length

end

mutual

/-- Whether every body that a failed test skips is short enough. -/
def Program.IsSkippable : Program → Prop
  | .done => True
  | .check _ _ _ body rest | .require _ body rest =>
    body.flatten.length ≤ Program.maxSkip ∧
      body.IsSkippable ∧ rest.IsSkippable
  | .switch _ _ cases rest => cases.IsSkippable ∧ rest.IsSkippable
  | .decode _ _ rest | .decodeExpecting _ _ _ _ rest | .fail rest =>
    rest.IsSkippable

/-- The same of cases, whose bodies are skipped with the `fail` they end in. -/
def Cases.IsSkippable : Cases → Prop
  | .done => True
  | .case _ body rest =>
    (body.flattenOnto [.fail]).length ≤ Program.maxSkip ∧
      body.IsSkippable ∧ rest.IsSkippable

end

/--
Whether an error tells of something that a program has written. The others
tell of tables that no program is laid out as.
-/
def TableError.blamesProgram : TableError → Bool
  | .skipOverflow _ _ | .fieldOutOfRange _ _ _ | .valueTooWide _ _
  | .unknownFormat _ _ _ | .unknownPredicate _ _ _ => true
  | .empty _ | .skipOutOfBounds _ _ | .danglingFilter _ _
  | .expectWithoutDecode _ _ | .unterminated _ => false

namespace Table

/-! ## What the walk carries between statements -/

namespace WidthSet

/-- Nothing has been added to the sets inside the next `count` entries. -/
def Untouched (sets : List WidthSet) (count : Nat) : Prop :=
  ∀ place, 0 < place → place < count → sets[place]? = some 0

/-- Behind `count` entries, widths have been added to the first set only. -/
structure Follows
    (sets : List WidthSet)
    (count : Nat)
    (reached : List WidthSet) :
    Prop where
  length_eq : reached.length + count = sets.length
  behind : ∀ place, 0 < place → reached[place]? = sets[place + count]?

variable {sets reached later : List WidthSet} {count more : Nat}

theorem Follows.refl (sets : List WidthSet) : Follows sets 0 sets :=
  ⟨rfl, fun _ _ => rfl⟩

theorem Follows.trans
    (first : Follows sets count reached)
    (second : Follows reached more later) :
    Follows sets (count + more) later where
  length_eq := by
    have := first.length_eq
    have := second.length_eq
    omega
  behind := by
    intro place positive
    rw [second.behind place positive, first.behind _ (by omega)]
    congr 1
    omega

theorem Untouched.of_follows
    (untouched : Untouched sets (count + more))
    (follows : Follows sets count reached) :
    Untouched reached more := by
  intro place positive inside
  rw [follows.behind place positive]
  exact untouched _ (by omega) (by omega)

theorem Untouched.mono
    (untouched : Untouched sets count)
    (fewer : more ≤ count) :
    Untouched sets more := by
  intro place positive inside
  exact untouched place positive (by omega)

end WidthSet

namespace Limits

open WidthSet

section Step

variable
  {widths : WidthSet}
  {ahead reached : List WidthSet}
  {entry : Entry}
  {count : Nat}

/-- An entry adds widths to the next set and to the one it skips to. -/
theorem getElem?_setsAfter
    {place : Nat}
    (positive : 0 < place)
    (notSkipped : entry.skip? ≠ some place) :
    (setsAfter widths ahead entry)[place]? = ahead[place]? := by
  unfold setsAfter
  split
  · next skip skips =>
    have elsewhere : skip ≠ place := by
      rintro rfl
      exact notSkipped skips
    simp [WidthSet.addAt, Nat.ne_of_lt positive, elsewhere]
  · simp [WidthSet.addAt, Nat.ne_of_lt positive]

/-- An entry hands its widths on to the entry that it skips to. -/
theorem getElem?_setsAfter_skip
    {skip : Nat}
    (positive : 0 < skip)
    (skips : entry.skip? = some skip) :
    (setsAfter widths ahead entry)[skip]? =
      ahead[skip]?.map (· ||| widths) := by
  simp [setsAfter, skips, WidthSet.addAt, Nat.ne_of_lt positive]

theorem getElem?_setsAfter_zero (skips : entry.skip? = none) :
    (setsAfter widths ahead entry)[0]? =
      ahead[0]?.map (· ||| widthsAfter widths entry) := by
  simp [setsAfter, skips, WidthSet.addAt]

/-- An entry and what it may skip are passed together. -/
theorem follows_cons
    (within : ∀ skip, entry.skip? = some skip → skip ≤ count)
    (follows : Follows (setsAfter widths ahead entry) count reached) :
    Follows (widths :: ahead) (count + 1) reached where
  length_eq := by
    have lengths := follows.length_eq
    rw [length_setsAfter] at lengths
    rw [List.length_cons]
    omega
  behind := by
    intro place positive
    rw [follows.behind place positive, getElem?_setsAfter (by omega)]
    · rfl
    · intro skips
      have := within _ skips
      omega

theorem untouched_setsAfter
    (untouched : Untouched (widths :: ahead) (count + 1))
    (beyond : ∀ skip, entry.skip? = some skip → count ≤ skip) :
    Untouched (setsAfter widths ahead entry) count := by
  intro place positive inside
  rw [getElem?_setsAfter positive]
  · exact untouched (place + 1) (by omega) (by omega)
  · intro skips
    have := beyond _ skips
    omega

end Step

/-! ## Verdicts -/

/-- A verdict on something that is sound or not; a fault blames the program. -/
inductive Judges (sound : Prop) : Option TableError → Prop where
  | accepts (holds : sound) : Judges sound none
  | refuses {error : TableError}
      (fails : ¬sound)
      (blames : error.blamesProgram) :
      Judges sound (some error)

theorem Judges.congr
    {sound other : Prop}
    {verdict : Option TableError}
    (judges : Judges sound verdict)
    (same : sound ↔ other) :
    Judges other verdict :=
  propext same ▸ judges

variable
  {limits : Limits}
  {position : Nat}
  {widths : WidthSet}
  {next : Option Entry}

theorem hasField_iff {width start length : Nat} :
    hasField width start length ↔ IsField width start length := by
  simp only [hasField, Bool.and_eq_true, decide_eq_true_eq]
  constructor
  · rintro ⟨⟨nonempty, loadable⟩, inside⟩
    exact ⟨Nat.pos_of_ne_zero nonempty, loadable, inside⟩
  · rintro ⟨nonempty, loadable, inside⟩
    exact ⟨⟨Nat.ne_of_gt nonempty, loadable⟩, inside⟩

theorem judges_extract (start length : Nat) :
    Judges (IsField limits.width start length)
      (limits.fault? position widths next (.extract start length)) := by
  rw [fault?]
  split
  · next present => exact .accepts (hasField_iff.mp present)
  · next missing => exact .refuses (mt hasField_iff.mpr missing) rfl

theorem judges_check (start length value skip : Nat) :
    Judges (IsField limits.width start length ∧ value < 2 ^ length)
      (limits.fault? position widths next
        (.check start length value skip)) := by
  rw [fault?]
  split
  · next missing =>
    rw [Bool.not_eq_true', ← Bool.not_eq_true] at missing
    exact .refuses (fun both => missing (hasField_iff.mpr both.1)) rfl
  · next present =>
    rw [Bool.not_eq_true', ← Bool.not_eq_true, not_not] at present
    split
    · next small =>
      exact .accepts ⟨hasField_iff.mp present, of_decide_eq_true small⟩
    · next large =>
      exact .refuses (fun both => large (decide_eq_true both.2)) rfl

theorem judges_require (predicate skip : Nat) :
    Judges (predicate < limits.predicates)
      (limits.fault? position widths next (.require predicate skip)) := by
  rw [fault?]
  split
  · next known => exact .accepts known
  · next unknown => exact .refuses unknown rfl

theorem judges_decode (opcode format : Nat) :
    Judges (format < limits.formats)
      (limits.fault? position widths next (.decode opcode format)) := by
  rw [fault?]
  split
  · next known => exact .accepts known
  · next unknown => exact .refuses unknown rfl

/-- A program writes every expectation in front of a `decode`. -/
theorem judges_expect (zeros ones opcode format : Nat) :
    Judges (zeros < 2 ^ limits.width ∧ ones < 2 ^ limits.width)
      (limits.fault? position widths (some (.decode opcode format))
        (.expect zeros ones)) := by
  have both :
      fits (zeros ||| ones) limits.width ↔
        zeros < 2 ^ limits.width ∧ ones < 2 ^ limits.width := by
    rw [fits, decide_eq_true_eq]
    constructor
    · intro small
      exact ⟨Nat.lt_of_le_of_lt Nat.left_le_or small,
        Nat.lt_of_le_of_lt Nat.right_le_or small⟩
    · rintro ⟨zerosSmall, onesSmall⟩
      exact Nat.or_lt_two_pow zerosSmall onesSmall
  rw [fault?, if_neg (by simp [Entry.isDecode])]
  split
  · next small => exact .accepts (both.mp small)
  · next large => exact .refuses (mt both.mpr large) rfl

/-- The only width in a set of one width is its least one. -/
theorem least?_two_pow {length : Nat} (loadable : length ≤ 64) :
    least? (2 ^ length) = some length := by
  have each : ∀ length ≤ 64, least? (2 ^ length) = some length := by
    decide
  exact each length loadable

/-- A filter that finds the width of its own switch compares with that. -/
theorem judges_filter
    {length : Nat}
    (nonempty : 0 < length)
    (loadable : length ≤ 64)
    (value skip : Nat) :
    Judges (value < 2 ^ length)
      (limits.fault? position (2 ^ length) next (.filter value skip)) := by
  have loaded : Nat.testBit (2 ^ length) 0 = false := by
    rw [Nat.testBit_two_pow]
    simpa using Nat.ne_of_gt nonempty
  rw [fault?, loaded, if_neg Bool.false_ne_true, least?_two_pow loadable]
  dsimp only
  split
  · next small => exact .accepts (of_decide_eq_true small)
  · next large => exact .refuses (mt decide_eq_true large) rfl

/-- The walk goes on behind an entry that has no fault. -/
theorem firstFault?_cons
    {entry : Entry}
    {behind : List Entry}
    (inside : ∀ skip, entry.skip? = some skip → skip < behind.length)
    (ahead : List WidthSet) :
    limits.firstFault? position (entry :: behind) (widths :: ahead) =
      (limits.fault? position widths behind.head? entry).or
        (limits.firstFault? (position + 1) behind
          (setsAfter widths ahead entry)) := by
  cases skips : entry.skip? with
  | none =>
      simp only [firstFault?, skips, setsAfter, List.headD_cons,
        List.tail_cons, Option.isSome_none, Bool.false_and,
        Bool.false_eq_true, ↓reduceIte]
      cases limits.fault? position widths behind.head? entry <;> rfl
  | some skip =>
      have lands := decide_eq_false (Nat.not_le.mpr (inside skip skips))
      simp only [firstFault?, skips, setsAfter, List.headD_cons,
        List.tail_cons, Option.isSome_some, Option.getD_some, lands,
        Bool.and_false, Bool.false_eq_true, ↓reduceIte]
      cases limits.fault? position widths behind.head? entry <;> rfl

theorem Judges.or
    {sound later : Prop}
    {verdict following : Option TableError}
    (judges : Judges sound verdict)
    (goesOn : sound → Judges later following) :
    Judges (sound ∧ later) (verdict.or following) := by
  cases judges with
  | accepts holds => exact (goesOn holds).congr (and_iff_right holds).symm
  | refuses fails blames => exact .refuses (fun both => fails both.1) blames

theorem Judges.cons
    {sound later : Prop}
    {entry : Entry}
    {behind : List Entry}
    {ahead : List WidthSet}
    (judges :
      Judges sound (limits.fault? position widths behind.head? entry))
    (inside : ∀ skip, entry.skip? = some skip → skip < behind.length)
    (goesOn :
      sound →
        Judges later
          (limits.firstFault? (position + 1) behind
            (setsAfter widths ahead entry))) :
    Judges (sound ∧ later)
      (limits.firstFault? position (entry :: behind) (widths :: ahead)) := by
  rw [firstFault?_cons inside]
  exact judges.or goesOn

/-! ## Blocks of entries -/

/--
A block of entries that may stand in front of any others. From sets that are
as expected, and untouched inside the block, the walk judges the block, and
then whatever follows it.
-/
structure Block
    (limits : Limits)
    (expected : List WidthSet → Prop)
    (layout : List Entry → List Entry)
    (size : Nat)
    (sound : Prop) :
    Prop where
  length_eq : ∀ after, (layout after).length = size + after.length
  judges :
    ∀ {after : List Entry} {later : Prop} {sets : List WidthSet}
      {position : Nat},
      0 < after.length →
      sets.length = size + after.length →
      Untouched sets size →
      expected sets →
      (∀ {there : Nat} {reached : List WidthSet},
        Follows sets size reached →
          Judges later (limits.firstFault? there after reached)) →
      Judges (sound ∧ later)
        (limits.firstFault? position (layout after) sets)

/-- Any sets at all. -/
def Any (_ : List WidthSet) : Prop :=
  True

/-- Sets of which the first has one width, if there are entries to find it. -/
def Loaded (length size : Nat) (sets : List WidthSet) : Prop :=
  0 < size → sets[0]? = some (2 ^ length)

namespace Block

variable
  {expected : List WidthSet → Prop}
  {layout second : List Entry → List Entry}
  {size more : Nat}
  {sound other : Prop}

theorem size_eq
    (block : limits.Block expected layout size sound)
    (lengths : ∀ after, (layout after).length = more + after.length) :
    size = more := by
  have same := block.length_eq []
  rw [lengths] at same
  omega

theorem congr
    (block : limits.Block expected layout size sound)
    (lengths : ∀ after, (layout after).length = more + after.length)
    (same : sound ↔ other) :
    limits.Block expected layout more other :=
  block.size_eq lengths ▸ propext same ▸ block

theorem nothing : limits.Block expected id 0 True where
  length_eq := fun _ => (Nat.zero_add _).symm
  judges := fun _ _ _ _ goesOn =>
    (goesOn (Follows.refl _)).congr ⟨fun holds => ⟨trivial, holds⟩, And.right⟩

theorem append
    (block : limits.Block expected layout size sound)
    (next : limits.Block Any second more other) :
    limits.Block expected (fun after => layout (second after)) (size + more)
      (sound ∧ other) where
  length_eq := by
    intro after
    rw [block.length_eq, next.length_eq, Nat.add_assoc]
  judges := by
    intro after later sets position nonempty lengths untouched asExpected
      goesOn
    rw [and_assoc]
    refine block.judges ?_ ?_ ?_ asExpected ?_
    · rw [next.length_eq]
      omega
    · rw [next.length_eq]
      omega
    · exact untouched.mono (Nat.le_add_right ..)
    · intro there reached follows
      refine next.judges nonempty ?_ (untouched.of_follows follows) trivial
        fun further => goesOn (follows.trans further)
      have := follows.length_eq
      omega

/-- A test in front of what it skips, or an entry that skips nothing. -/
theorem cons
    {entry : Entry}
    (judged :
      ∀ {position : Nat} {widths : WidthSet} {after : List Entry},
        Judges sound
          (limits.fault? position widths (layout after).head? entry))
    (skips : ∀ skip, entry.skip? = some skip → skip = size)
    (block : limits.Block Any layout size other) :
    limits.Block Any (fun after => entry :: layout after) (size + 1)
      (sound ∧ other) where
  length_eq := by
    intro after
    rw [List.length_cons, block.length_eq]
    omega
  judges := by
    intro after later sets position nonempty lengths untouched _ goesOn
    cases sets with
    | nil =>
        rw [List.length_nil] at lengths
        omega
    | cons widths ahead =>
        rw [List.length_cons] at lengths
        rw [and_assoc]
        apply Judges.cons judged
        · intro skip isSkip
          rw [skips skip isSkip, block.length_eq]
          omega
        · intro _
          refine block.judges nonempty ?_ ?_ trivial fun follows =>
            goesOn (follows_cons ?_ follows)
          · rw [length_setsAfter]
            omega
          · intro place positive inside
            exact untouched_setsAfter untouched
              (fun skip isSkip => Nat.le_of_eq (skips skip isSkip).symm) place
              positive inside
          · exact fun skip isSkip => Nat.le_of_eq (skips skip isSkip)

/-- A switch loads the field that its cases find. -/
theorem switch
    (start length : Nat)
    (lengths : ∀ after, (layout after).length = size + after.length)
    (cases :
      IsField limits.width start length →
        limits.Block (Loaded length size) layout size sound) :
    limits.Block Any (fun after => .extract start length :: layout after)
      (size + 1) (IsField limits.width start length ∧ sound) where
  length_eq := by
    intro after
    rw [List.length_cons, lengths]
    omega
  judges := by
    intro after later sets position nonempty setLengths untouched _ goesOn
    cases sets with
    | nil =>
        rw [List.length_nil] at setLengths
        omega
    | cons widths ahead =>
        rw [List.length_cons] at setLengths
        rw [and_assoc]
        apply Judges.cons (judges_extract start length) (by rintro _ ⟨⟩)
        intro isField
        refine (cases isField).judges nonempty ?_ ?_ ?_ fun follows =>
          goesOn (follows_cons (by rintro _ ⟨⟩) follows)
        · rw [length_setsAfter]
          omega
        · exact untouched_setsAfter untouched (by rintro _ ⟨⟩)
        · intro several
          have fresh : ahead[0]? = some 0 :=
            untouched 1 Nat.one_pos (by omega)
          rw [getElem?_setsAfter_zero rfl, fresh, Option.map_some,
            Nat.zero_or]
          rfl

/--
The cases behind the `fail` that closes a body find what was handed on to
them, since the `fail` itself hands nothing on.
-/
theorem judges_behind_fail
    {length : Nat}
    (rest : limits.Block (Loaded length more) second more other)
    {after : List Entry}
    {later : Prop}
    {sets : List WidthSet}
    (nonempty : 0 < after.length)
    (lengths : sets.length = more + 1 + after.length)
    (untouched :
      ∀ place, 1 < place → place < more + 1 → sets[place]? = some 0)
    (handedOn : 0 < more → sets[1]? = some (2 ^ length))
    (goesOn :
      ∀ {there : Nat} {reached : List WidthSet},
        Follows sets (more + 1) reached →
          Judges later (limits.firstFault? there after reached)) :
    Judges (other ∧ later)
      (limits.firstFault? position (.fail :: second after) sets) := by
  cases sets with
  | nil =>
      rw [List.length_nil] at lengths
      omega
  | cons widths ahead =>
      rw [List.length_cons] at lengths
      refine (Judges.cons (.accepts trivial) (by rintro _ ⟨⟩) fun _ => ?_).congr
        (iff_of_eq (true_and _))
      refine rest.judges nonempty ?_ ?_ ?_ fun follows =>
        goesOn (follows_cons (by rintro _ ⟨⟩) follows)
      · rw [length_setsAfter]
        omega
      · intro place positive inside
        rw [getElem?_setsAfter positive (by rintro ⟨⟩)]
        exact untouched (place + 1) (by omega) (by omega)
      · intro several
        have found : ahead[0]? = some (2 ^ length) := handedOn several
        rw [getElem?_setsAfter_zero rfl, found]
        exact congrArg some (Nat.or_zero _)

/--
A case whose filter fails hands the loaded field on to the next case, past its
body and the `fail` that closes it.
-/
theorem case
    {length : Nat}
    (nonempty : 0 < length)
    (loadable : length ≤ 64)
    (value : Nat)
    (body : limits.Block Any layout size sound)
    (rest : limits.Block (Loaded length more) second more other) :
    limits.Block (Loaded length (size + more + 2))
      (fun after =>
        .filter value (size + 1) :: layout (.fail :: second after))
      (size + more + 2) (value < 2 ^ length ∧ sound ∧ other) where
  length_eq := by
    intro after
    rw [List.length_cons, body.length_eq, List.length_cons, rest.length_eq]
    omega
  judges := by
    intro after later sets position someAfter lengths untouched loaded goesOn
    have lengthBehind :
        (Entry.fail :: second after).length = more + 1 + after.length := by
      rw [List.length_cons, rest.length_eq]
      omega
    cases sets with
    | nil =>
        rw [List.length_nil] at lengths
        omega
    | cons widths ahead =>
        rw [List.length_cons] at lengths
        obtain rfl : widths = 2 ^ length :=
          Option.some.inj (loaded (by omega))
        rw [and_assoc, and_assoc]
        apply Judges.cons (judges_filter nonempty loadable value (size + 1))
        · rintro _ ⟨⟩
          rw [body.length_eq, lengthBehind]
          omega
        intro _
        refine body.judges ?_ ?_ ?_ trivial fun follows => ?_
        · rw [lengthBehind]
          omega
        · rw [length_setsAfter, lengthBehind]
          omega
        · refine untouched_setsAfter (untouched.mono (by omega)) ?_
          rintro _ ⟨⟩
          exact Nat.le_succ _
        -- Of the entries behind the body, the filter has reached the second.
        refine judges_behind_fail rest someAfter ?_ ?_ ?_ fun further =>
          goesOn (follows_cons ?_ (follows.trans further))
        · have := follows.length_eq
          rw [length_setsAfter] at this
          omega
        · intro place positive inside
          rw [follows.behind place (by omega),
            getElem?_setsAfter (by omega)]
          · exact untouched (place + size + 1) (by omega) (by omega)
          · intro skips
            have : size + 1 = place + size := Option.some.inj skips
            omega
        · intro several
          have fresh : ahead[size + 1]? = some 0 :=
            untouched (size + 2) (by omega) (by omega)
          rw [follows.behind 1 Nat.one_pos, Nat.add_comm 1 size,
            getElem?_setsAfter_skip (Nat.succ_pos size) rfl, fresh,
            Option.map_some, Nat.zero_or]
        · rintro _ ⟨⟩
          omega

end Block

end Limits

end Table

open Table Table.Limits Table.WidthSet

mutual

/-- The walk judges a program by what its statements refer to. -/
theorem Program.block (limits : Limits) :
    ∀ program : Program,
      limits.Block Any program.flattenOnto program.size
        (program.StaysWithin limits)
  | .done => Block.nothing
  | .check start length value body rest => by
    have test :=
      (body.block limits).cons
        (fun {_ _ _} => judges_check start length value body.size)
        (by rintro _ ⟨⟩; rfl)
    refine (test.append (rest.block limits)).congr
      (Program.length_flattenOnto (.check ..)) ?_
    simp only [Program.StaysWithin, and_assoc]
  | .require predicate body rest => by
    have test :=
      (body.block limits).cons
        (fun {_ _ _} => judges_require predicate body.size)
        (by rintro _ ⟨⟩; rfl)
    refine (test.append (rest.block limits)).congr
      (Program.length_flattenOnto (.require ..)) ?_
    simp only [Program.StaysWithin, and_assoc]
  | .switch start length cases rest => by
    have switch :=
      Block.switch start length cases.length_flattenOnto fun isField =>
        cases.block limits isField.nonempty isField.loadable
    refine (switch.append (rest.block limits)).congr
      (Program.length_flattenOnto (.switch ..)) ?_
    simp only [Program.StaysWithin, and_assoc]
  | .decode opcode format rest => by
    have ending :=
      (rest.block limits).cons (fun {_ _ _} => judges_decode opcode format)
        (fun _ skips => by cases skips)
    exact ending.congr (Program.length_flattenOnto (.decode ..)) Iff.rfl
  | .decodeExpecting opcode format zeros ones rest => by
    have ending :=
      (rest.block limits).cons (fun {_ _ _} => judges_decode opcode format)
        (fun _ skips => by cases skips)
    have expecting :=
      ending.cons (fun {_ _ _} => judges_expect zeros ones opcode format)
        (fun _ skips => by cases skips)
    refine expecting.congr
      (Program.length_flattenOnto (.decodeExpecting ..)) ?_
    simp only [Program.StaysWithin, and_assoc]
  | .fail rest => by
    have ending :=
      (rest.block limits).cons (fun {_ _ _} => Judges.accepts trivial)
        (fun skip (skips : Entry.fail.skip? = some skip) => by cases skips)
    exact ending.congr (Program.length_flattenOnto (.fail rest))
      ⟨And.right, fun holds => ⟨trivial, holds⟩⟩

/-- The walk judges cases by the length of the field that they find. -/
theorem Cases.block
    (limits : Limits)
    {length : Nat}
    (nonempty : 0 < length)
    (loadable : length ≤ 64) :
    ∀ cases : Cases,
      limits.Block (Loaded length (cases.sizeOnto 0)) cases.flattenOnto
        (cases.sizeOnto 0) (cases.StaysWithin limits length)
  | .done => Block.nothing
  | .case value body rest => by
    have case :=
      Block.case nonempty loadable value (body.block limits)
        (rest.block limits nonempty loadable)
    rw [case.size_eq (Cases.length_flattenOnto (.case value body rest))]
      at case
    exact case

end

/-! ## Laid-out programs -/

mutual

/-- No skip distance overflows if every body is short enough. -/
theorem Program.overflowFrom?_eq_none_iff :
    ∀ (program : Program) (position : Nat),
      program.overflowFrom? position = none ↔ program.IsSkippable
  | .done, _ => iff_of_true rfl trivial
  | .check _ _ _ body rest, position => by
    rw [Program.overflowFrom?, Program.IsSkippable, Program.length_flatten,
      ← body.overflowFrom?_eq_none_iff (position + 1),
      ← rest.overflowFrom?_eq_none_iff (position + 1 + body.size)]
    cases body.overflowFrom? (position + 1) <;> grind
  | .require _ body rest, position => by
    rw [Program.overflowFrom?, Program.IsSkippable, Program.length_flatten,
      ← body.overflowFrom?_eq_none_iff (position + 1),
      ← rest.overflowFrom?_eq_none_iff (position + 1 + body.size)]
    cases body.overflowFrom? (position + 1) <;> grind
  | .switch _ _ cases rest, position => by
    rw [Program.overflowFrom?, Program.IsSkippable,
      ← cases.overflowFrom?_eq_none_iff (position + 1),
      ← rest.overflowFrom?_eq_none_iff (cases.sizeOnto (position + 1))]
    cases cases.overflowFrom? (position + 1) <;> simp
  | .decode _ _ rest, _ => rest.overflowFrom?_eq_none_iff _
  | .decodeExpecting _ _ _ _ rest, _ => rest.overflowFrom?_eq_none_iff _
  | .fail rest, _ => rest.overflowFrom?_eq_none_iff _

theorem Cases.overflowFrom?_eq_none_iff :
    ∀ (cases : Cases) (position : Nat),
      cases.overflowFrom? position = none ↔ cases.IsSkippable
  | .done, _ => iff_of_true rfl trivial
  | .case _ body rest, position => by
    rw [Cases.overflowFrom?, Cases.IsSkippable, Program.length_flattenOnto,
      ← body.overflowFrom?_eq_none_iff (position + 1),
      ← rest.overflowFrom?_eq_none_iff (position + 2 + body.size)]
    cases body.overflowFrom? (position + 1) <;> grind

end

namespace Program

section Finish

variable (program : Program) (name : String) (width formats predicates : Nat)

/-- The fault that the check of a laid-out program comes upon first. -/
def fault? : Option TableError :=
  Limits.firstFault? ⟨name, width, formats, predicates⟩ 0
    (program.toTable name width).entries
    ((List.replicate (program.toTable name width).size 0).modify 0 fun _ => 1)

theorem judges_fault? :
    Judges (program.StaysWithin ⟨name, width, formats, predicates⟩)
      (program.fault? name width formats predicates) := by
  have size : (program.toTable name width).size = program.size + 1 :=
    program.length_flattenOnto [.fail]
  rw [fault?, size]
  refine Judges.congr ?_ (iff_of_eq (and_true _))
  refine (program.block _).judges (Nat.succ_pos 0) ?_ ?_ trivial ?_
  · simp
  · intro place positive inside
    rw [List.getElem?_modify]
    simp [Nat.ne_of_lt positive, Nat.lt_succ_of_lt inside]
  · intro there reached _
    exact .accepts trivial

theorem judges_overflow? :
    Judges program.IsSkippable
      (program.overflow?.map (TableError.skipOverflow name)) := by
  have skippable := program.overflowFrom?_eq_none_iff 0
  rw [overflow?]
  cases overflows : program.overflowFrom? 0 with
  | none => exact .accepts (skippable.mp overflows)
  | some position =>
      refine .refuses (fun short => ?_) rfl
      rw [skippable.mpr short] at overflows
      cases overflows

/-- The table of a program ends, so the walk over it decides. -/
theorem validate_toTable :
    (program.toTable name width).validate formats predicates =
      match program.fault? name width formats predicates with
      | some error => .error error
      | none => .ok () := by
  have ends :
      (program.toTable name width).entries.getLast? = some .fail := by
    rw [toTable, flattenOnto_eq, List.getLast?_concat]
  rw [Table.validate, ends]
  rfl

theorem finish_eq :
    program.finish name width formats predicates =
      match
        (program.overflow?.map (TableError.skipOverflow name)).or
          (program.fault? name width formats predicates) with
      | some error => .error error
      | none => .ok (program.toTable name width) := by
  rw [finish]
  cases program.overflow? with
  | some position => rfl
  | none =>
      dsimp only
      rw [validate_toTable]
      cases program.fault? name width formats predicates <;> rfl

/--
A program is accepted exactly if what its statements refer to exists and every
body that they skip is short enough. A refusal blames the program.
-/
theorem finish_accepts :
    ((∃ table, program.finish name width formats predicates = .ok table) ↔
      program.StaysWithin ⟨name, width, formats, predicates⟩ ∧
        program.IsSkippable) ∧
      ∀ error,
        program.finish name width formats predicates = .error error →
          error.blamesProgram := by
  have judges :=
    ((program.judges_overflow? name).or fun _ =>
      program.judges_fault? name width formats predicates).congr and_comm
  rw [finish_eq]
  generalize Option.or _ _ = verdict at judges
  cases judges with
  | accepts holds => exact ⟨iff_of_true ⟨_, rfl⟩ holds, by rintro _ ⟨⟩⟩
  | refuses fails blames =>
      refine ⟨iff_of_false (by rintro ⟨_, ⟨⟩⟩) fails, ?_⟩
      rintro _ ⟨⟩
      exact blames

end Finish

/--
A value that the field of the outer switch can take, and that of its own
switch cannot. The switch stands where no run reaches it.
-/
def unreachableCase : Program :=
  .ofList
    [Statement.switch 0 4
      [Statement.case 9
        [Statement.fail,
          Statement.switch 4 2
            [Statement.case 9
              [Program.decode RiscV.Opcode.ecall.id RiscV.Format.bare.id]]]]]

/-- Both programs with nested switches, of which one is refused. -/
theorem finish_accepts_nestedSwitches :
    nestedSwitches.StaysWithin
        ⟨"nested", 8, RiscV.Format.count, RiscV.Requirement.count⟩ ∧
      unreachableCase.finish "nested" 8 RiscV.Format.count
          RiscV.Requirement.count = .error (.valueTooWide "nested" 4) ∧
      (TableError.valueTooWide "nested" 4).blamesProgram ∧
      ¬(unreachableCase.StaysWithin
          ⟨"nested", 8, RiscV.Format.count, RiscV.Requirement.count⟩ ∧
        unreachableCase.IsSkippable) := by
  have refused :
      unreachableCase.finish "nested" 8 RiscV.Format.count
          RiscV.Requirement.count = .error (.valueTooWide "nested" 4) :=
    rfl
  have accepted :=
    nestedSwitches.finish_accepts "nested" 8 RiscV.Format.count
      RiscV.Requirement.count
  have judged :=
    unreachableCase.finish_accepts "nested" 8 RiscV.Format.count
      RiscV.Requirement.count
  refine ⟨(accepted.1.mp ⟨_, rfl⟩).1, refused, judged.2 _ refused, ?_⟩
  intro both
  rcases judged.1.mpr both with ⟨table, isTable⟩
  rw [refused] at isTable
  cases isTable

end Program

end MachineCode
