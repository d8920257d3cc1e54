import MachineCode.Proofs.Table.Known

/-!
# The terms on which words are accepted

A word that is matched may still be refused, or accepted with a doubt. Both
are told by lists of tests (`Terms`): all tests of one of the lists hold. The
ways through a program have terms of their own, and the first way whose tests
hold gives the terms for a word (`Way.doubt?`).

A listing for all words is compared with the ways through a program by asking
for the values of fields until both are the same (`Way.agree`). An answer
decides some of the tests, which are then left out (`Guard.narrow?`).
-/

namespace MachineCode

/-! ## Terms -/

/-- When a word is refused, and when it is accepted with a doubt. -/
structure Terms where
  refused : List (List Guard) := []
  doubtful : List (List Guard) := []
deriving DecidableEq, Repr

/-- Whether all tests of one of some lists hold. -/
def Guard.holdAny
    (grants : Nat → Bool)
    (value : Nat)
    (lists : List (List Guard)) :
    Bool :=
  lists.any fun tests => tests.all (Guard.holds grants value)

/-- Whether a word is accepted with a doubt, if it is accepted. -/
def Terms.doubt? (grants : Nat → Bool) (value : Nat) (terms : Terms) :
    Option Bool :=
  if Guard.holdAny grants value terms.refused then
    none
  else
    some (Guard.holdAny grants value terms.doubtful)

/-- The same terms, with more doubts. -/
def Terms.withDoubts (lists : List (List Guard)) (terms : Terms) : Terms :=
  { terms with doubtful := lists ++ terms.doubtful }

theorem Terms.doubt?_withDoubts
    (grants : Nat → Bool)
    (value : Nat)
    (lists : List (List Guard))
    (terms : Terms) :
    (terms.withDoubts lists).doubt? grants value =
      (terms.doubt? grants value).map
        (Guard.holdAny grants value lists || ·) := by
  rw [doubt?, doubt?, withDoubts]
  split
  · rfl
  · rw [Option.map_some, Guard.holdAny, List.any_append]
    rfl

/-- Whether a test is one of a field, whatever is granted. -/
def Guard.testsField : Guard → Bool
  | .field .. | .otherField .. => true
  | .granted _ | .refused _ => false

/-- Whether terms make no test but those of fields. -/
def Terms.testsFields (terms : Terms) : Bool :=
  (terms.refused ++ terms.doubtful).all fun tests =>
    tests.all Guard.testsField

section Fields

variable {grants others : Nat → Bool} {value : Nat}

theorem Guard.holds_of_testsField
    {guard : Guard}
    (testsField : guard.testsField) :
    guard.holds grants value = guard.holds others value := by
  cases guard with
  | field | otherField => rfl
  | granted | refused => cases testsField

theorem Guard.all_holds_of_testsField
    {tests : List Guard}
    (testsFields : tests.all testsField) :
    tests.all (holds grants value) = tests.all (holds others value) := by
  induction tests with
  | nil => rfl
  | cons guard tests induction =>
      rw [List.all_cons, Bool.and_eq_true] at testsFields
      rw [List.all_cons, List.all_cons,
        holds_of_testsField testsFields.1, induction testsFields.2]

theorem Guard.holdAny_of_testsField
    {lists : List (List Guard)}
    (testsFields : lists.all fun tests => tests.all testsField) :
    holdAny grants value lists = holdAny others value lists := by
  rw [holdAny, holdAny]
  induction lists with
  | nil => rfl
  | cons tests lists induction =>
      rw [List.all_cons, Bool.and_eq_true] at testsFields
      rw [List.any_cons, List.any_cons,
        all_holds_of_testsField testsFields.1, induction testsFields.2]

/-- What is granted does not matter where only fields are tested. -/
theorem Terms.doubt?_of_testsFields
    {terms : Terms}
    (testsFields : terms.testsFields) :
    terms.doubt? grants value = terms.doubt? others value := by
  rw [Terms.testsFields, List.all_append, Bool.and_eq_true] at testsFields
  have refused :
      Guard.holdAny grants value terms.refused =
        Guard.holdAny others value terms.refused :=
    Guard.holdAny_of_testsField testsFields.1
  have doubtful :
      Guard.holdAny grants value terms.doubtful =
        Guard.holdAny others value terms.doubtful :=
    Guard.holdAny_of_testsField testsFields.2
  rw [doubt?, doubt?, refused, doubtful]

end Fields

/-- A way through a program, with the terms at its end. -/
structure Way where
  guards : List Guard
  terms : Terms
deriving DecidableEq, Repr

/-- What the first way whose tests hold says of a word. -/
def Way.doubt? (grants : Nat → Bool) (value : Nat) : List Way → Option Bool
  | [] => none
  | way :: ways =>
    if way.guards.all (Guard.holds grants value) then
      way.terms.doubt? grants value
    else
      doubt? grants value ways

/-! ## Deciding some of the tests -/

/-- The tests that are left when some are decided, unless one of them fails. -/
def Guard.narrow? (judge : Guard → Option Bool) (tests : List Guard) :
    Option (List Guard) :=
  if tests.any fun guard => judge guard = some false then
    none
  else
    some (tests.filter fun guard => judge guard ≠ some true)

/-- The terms that are left when some tests are decided. -/
def Terms.narrow (judge : Guard → Option Bool) (terms : Terms) : Terms where
  refused := terms.refused.filterMap (Guard.narrow? judge)
  doubtful := terms.doubtful.filterMap (Guard.narrow? judge)

/-- The way that is left when some tests are decided, if it can be taken. -/
def Way.narrow? (judge : Guard → Option Bool) (way : Way) : Option Way :=
  (Guard.narrow? judge way.guards).map fun guards =>
    ⟨guards, way.terms.narrow judge⟩

section Narrowing

variable
  {judge : Guard → Option Bool}
  {grants : Nat → Bool}
  {value : Nat}
  (sound :
    ∀ guard decided, judge guard = some decided →
      guard.holds grants value = decided)
include sound

theorem Guard.all_eq_of_narrow? (tests : List Guard) :
    tests.all (Guard.holds grants value) =
      ((Guard.narrow? judge tests).any fun left =>
        left.all (Guard.holds grants value)) := by
  rw [Guard.narrow?]
  split
  · next failed =>
    rcases List.any_eq_true.mp failed with ⟨guard, member, judged⟩
    rw [decide_eq_true_eq] at judged
    rw [Option.any_none, List.all_eq_false]
    exact ⟨guard, member, by simp [sound guard false judged]⟩
  · rw [Option.any_some, List.all_filter]
    apply List.all_congr
    · rfl
    intro guard
    by_cases judged : judge guard = some true
    · simp [judged, sound guard true judged]
    · simp [judged]

theorem Guard.holdAny_filterMap_narrow? (lists : List (List Guard)) :
    Guard.holdAny grants value (lists.filterMap (Guard.narrow? judge)) =
      Guard.holdAny grants value lists := by
  induction lists with
  | nil => rfl
  | cons tests lists induction =>
      have same := Guard.all_eq_of_narrow? sound tests
      simp only [Guard.holdAny] at induction ⊢
      rw [List.filterMap_cons, List.any_cons, ← induction, same]
      cases Guard.narrow? judge tests with
      | none => rfl
      | some left => rfl

/-- To decide some tests does not change what the terms say. -/
theorem Terms.doubt?_narrow (terms : Terms) :
    (terms.narrow judge).doubt? grants value = terms.doubt? grants value := by
  simp only [Terms.doubt?, Terms.narrow,
    Guard.holdAny_filterMap_narrow? sound]

theorem Way.doubt?_filterMap_narrow? (ways : List Way) :
    Way.doubt? grants value (ways.filterMap (Way.narrow? judge)) =
      Way.doubt? grants value ways := by
  induction ways with
  | nil => rfl
  | cons way ways induction =>
      have same := Guard.all_eq_of_narrow? sound way.guards
      rw [List.filterMap_cons, Way.doubt?, same, Way.narrow?]
      cases Guard.narrow? judge way.guards with
      | none => simpa using induction
      | some left =>
          simp only [Option.map_some, Way.doubt?, Option.any_some,
            Terms.doubt?_narrow sound, induction]

end Narrowing

/-! ## Asking for fields -/

/-- What an answer says of another test. -/
def Guard.verdictGiven (answer guard : Guard) : Option Bool :=
  match answer with
  | .field start length value =>
    guard.verdict (.field start length value) fun _ => none
  | .otherField start length value =>
    if guard = .field start length value then some false
    else if guard = .otherField start length value then some true
    else none
  | .granted _ | .refused _ => none

theorem Guard.holds_of_verdictGiven
    {grants : Nat → Bool}
    {value : Nat}
    {answer : Guard}
    (given : answer.holds grants value)
    (guard : Guard)
    (decided : Bool)
    (judged : answer.verdictGiven guard = some decided) :
    guard.holds grants value = decided := by
  cases answer with
  | field start length wanted =>
      rw [holds, decide_eq_true_eq] at given
      exact holds_of_verdict (Known.agrees_field given)
        (fun _ _ foreseen => by cases foreseen) judged
  | otherField start length wanted =>
      rw [verdictGiven] at judged
      split at judged
      · next same =>
        cases judged
        simpa [same, holds] using given
      split at judged
      · next same =>
        cases judged
        rw [same]
        exact given
      · cases judged
  | granted | refused => cases judged

/-- A question about a field of a word. -/
inductive Question where
  /-- Which value the field has. -/
  | which (start length : Nat)
  /-- Whether the field has a value. -/
  | whether (start length value : Nat)
deriving DecidableEq, Repr

namespace Question

/-- The answers that there are, each as a test. -/
def answers : Question → List Guard
  | .which start length =>
    (List.range (2 ^ length)).map (Guard.field start length)
  | .whether start length value =>
    [.field start length value, .otherField start length value]

/-- One of the answers is true. -/
theorem exists_answer
    (question : Question)
    (grants : Nat → Bool)
    (value : Nat) :
    ∃ answer ∈ question.answers, answer.holds grants value := by
  cases question with
  | which start length =>
      refine ⟨.field start length (bitField value start length), ?_, ?_⟩
      · exact List.mem_map_of_mem
          (List.mem_range.mpr (bitField_lt value start length))
      · exact decide_eq_true rfl
  | whether start length wanted =>
      by_cases same : bitField value start length = wanted
      · exact ⟨.field start length wanted, by simp [answers],
          decide_eq_true same⟩
      · exact ⟨.otherField start length wanted, by simp [answers],
          decide_eq_true same⟩

end Question

/--
Whether ways and terms become the same, in all cases of some questions. The
next question is asked only where they are not the same yet.
-/
def Way.agree : List Question → List Way → Terms → Bool
  | questions, ways, terms =>
    ways.head? = some ⟨[], terms⟩ ||
      match questions with
      | [] => false
      | question :: questions =>
        question.answers.all fun answer =>
          agree questions (ways.filterMap (Way.narrow? answer.verdictGiven))
            (terms.narrow answer.verdictGiven)

/-- Where ways and terms agree they say the same of every word. -/
theorem Way.doubt?_eq_of_agree
    {grants : Nat → Bool}
    {value : Nat}
    {questions : List Question}
    {ways : List Way}
    {terms : Terms}
    (agrees : agree questions ways terms) :
    Way.doubt? grants value ways = terms.doubt? grants value := by
  induction questions generalizing ways terms with
  | nil =>
      rw [agree, Bool.or_false, decide_eq_true_eq] at agrees
      rcases List.head?_eq_some_iff.mp agrees with ⟨rest, rfl⟩
      rfl
  | cons question questions induction =>
      rw [agree, Bool.or_eq_true, decide_eq_true_eq] at agrees
      rcases agrees with same | later
      · rcases List.head?_eq_some_iff.mp same with ⟨rest, rfl⟩
        rfl
      · rcases question.exists_answer grants value with
          ⟨answer, listed, given⟩
        have sound := Guard.holds_of_verdictGiven given
        rw [← Way.doubt?_filterMap_narrow? sound ways,
          ← terms.doubt?_narrow sound]
        exact induction (List.all_eq_true.mp later answer listed)

/-! ## Programs -/

/-- The status of what is accepted, by whether there is a doubt. -/
def DecodeStatus.ofDoubt (doubtful : Bool) : DecodeStatus :=
  if doubtful then .softFail else .success

/-- The status of a word that a program has ended, if it was accepted. -/
def statusOf? (outcome : Outcome) : Option DecodeStatus :=
  outcome.toOption.map RawInstruction.status

section Programs

variable {isa : Isa} {features : Features} {word : Word}

/-- The way of a path whose end has terms. -/
def Path.way (termsOf : Ending → Terms) (path : Path) : Way :=
  ⟨path.guards, termsOf path.ending⟩

theorem Path.doubt?_way_cons
    (grants : Nat → Bool)
    (value : Nat)
    (termsOf : Ending → Terms)
    (path : Path)
    (ways : List Way) :
    Way.doubt? grants value (path.way termsOf :: ways) =
      if path.holds grants value then
        (termsOf path.ending).doubt? grants value
      else
        Way.doubt? grants value ways :=
  rfl

/-- The first way tells the status, as the first path gives the outcome. -/
theorem statusOf?_firstOutcome?
    {termsOf : Ending → Terms}
    {paths : List Path}
    (told :
      ∀ path ∈ paths,
        statusOf? (path.ending.outcome isa word) =
          ((termsOf path.ending).doubt? (isa.grants · features)
            word.value).map .ofDoubt) :
    statusOf?
        ((Path.firstOutcome? isa features word paths).getD word.unknown) =
      (Way.doubt? (isa.grants · features) word.value
        (paths.map (Path.way termsOf))).map .ofDoubt := by
  induction paths with
  | nil => rfl
  | cons path paths induction =>
      rw [List.forall_mem_cons] at told
      rw [Path.firstOutcome?, List.find?_cons, List.map_cons,
        Path.doubt?_way_cons]
      cases path.holds (isa.grants · features) word.value with
      | true => exact told.1
      | false => exact induction told.2

/-- The ways of a program tell the status of a word. -/
theorem Program.statusOf?_eval
    {program : Program}
    {termsOf : Ending → Terms}
    (told :
      ∀ path ∈ program.paths,
        statusOf? (path.ending.outcome isa word) =
          ((termsOf path.ending).doubt? (isa.grants · features)
            word.value).map .ofDoubt) :
    statusOf? (program.eval isa features word) =
      (Way.doubt? (isa.grants · features) word.value
        (program.paths.map (Path.way termsOf))).map .ofDoubt := by
  rw [eval, program.eval?_eq_firstOutcome?]
  exact statusOf?_firstOutcome? told

end Programs

end MachineCode
