import MachineCode.Proofs.Table.Twins

/-!
# More predicates granted

A word takes the first path of a decode program whose tests hold. When more
predicates are granted, further paths come into question, and one of them may
stand in front of the path that the word has taken before. A program is steady
(`Program.isSteady`) if this never matters: a path that asks for a predicate
is incompatible with the paths behind it that do not, or it ends as they do;
and no path that decodes relies on a refusal.

Words that decode with a steady program end where they did
(`Path.exists_find?_of_wider`), and have the same outcome
(`Program.eval_of_wider`). Words that no instruction matches may decode later.
-/

namespace MachineCode

namespace Path

/-- Whether a path asks for one of the predicates. -/
def asks (varies : Nat → Bool) (path : Path) : Bool :=
  path.guards.any fun guard =>
    match guard with
    | .granted predicate => varies predicate
    | _ => false

/-- Whether a path asks for one of the predicates that another does not ask. -/
def asksBeyond (varies : Nat → Bool) (path other : Path) : Bool :=
  path.guards.any fun guard =>
    match guard with
    | .granted predicate =>
      varies predicate && !other.guards.contains (.granted predicate)
    | _ => false

/-- Whether the path relies on the refusal of one of the predicates. -/
def relies (varies : Nat → Bool) (path : Path) : Bool :=
  path.guards.any fun guard =>
    match guard with
    | .refused predicate => varies predicate
    | _ => false

/--
Whether it makes no difference for the words that decode on the later path if
the earlier one comes into question.
-/
def spares (varies : Nat → Bool) (earlier later : Path) : Bool :=
  !earlier.asksBeyond varies later || !later.decodes ||
    !earlier.possible (knownBy later.guards) (fun _ => none) ||
    earlier.ending = later.ending

/-- Whether each path may come into question without any harm. -/
def areSteady (varies : Nat → Bool) : List Path → Bool
  | [] => true
  | path :: later =>
    (!path.decodes || !path.relies varies) &&
      (!path.asks varies || later.all (path.spares varies)) &&
        areSteady varies later

section Wider

variable
  {varies : Nat → Bool}
  {grants wider : Nat → Bool}
  {value : Nat}
  {path : Path}

/-- A path without refusals still holds when more is granted. -/
theorem holds_of_wider
    (widens : ∀ predicate, grants predicate → wider predicate)
    (same : ∀ predicate, varies predicate = false →
      wider predicate = grants predicate)
    (content : path.relies varies = false)
    (holds : path.holds grants value) :
    path.holds wider value := by
  rw [Path.holds, List.all_eq_true] at holds ⊢
  rw [relies, List.any_eq_false] at content
  intro guard member
  have held := holds guard member
  cases guard with
  | field | otherField => exact held
  | granted predicate => exact widens predicate held
  | refused predicate =>
      have constant := content _ member
      rw [Bool.not_eq_true] at constant
      rw [Guard.holds, same predicate constant]
      exact held

/-- A path that comes into question asks for what was refused. -/
theorem exists_granted_of_wider
    (widens : ∀ predicate, grants predicate → wider predicate)
    (same : ∀ predicate, varies predicate = false →
      wider predicate = grants predicate)
    (holds : path.holds wider value)
    (failed : path.holds grants value = false) :
    ∃ predicate,
      .granted predicate ∈ path.guards ∧
        varies predicate ∧ grants predicate = false := by
  rw [Path.holds, List.all_eq_true] at holds
  rw [Path.holds, List.all_eq_false] at failed
  rcases failed with ⟨guard, member, fails⟩
  have held := holds guard member
  cases guard with
  | field | otherField => exact absurd held fails
  | granted predicate =>
      rw [Guard.holds, Bool.not_eq_true] at fails
      refine ⟨predicate, member, ?_, fails⟩
      cases constant : varies predicate with
      | true => rfl
      | false =>
          rw [Guard.holds, same predicate constant, fails] at held
          cases held
  | refused predicate =>
      rw [Guard.holds, Bool.not_eq_true', Bool.not_eq_false] at fails
      rw [Guard.holds, widens predicate fails] at held
      cases held

/-- A path that comes into question ends as the one that it spares. -/
theorem ending_eq_of_spares
    (widens : ∀ predicate, grants predicate → wider predicate)
    (same : ∀ predicate, varies predicate = false →
      wider predicate = grants predicate)
    {earlier later : Path}
    (spares : earlier.spares varies later)
    (decodes : later.decodes)
    (laterHolds : later.holds grants value)
    (holds : earlier.holds wider value)
    (failed : earlier.holds grants value = false) :
    earlier.ending = later.ending := by
  rcases exists_granted_of_wider widens same holds failed with
    ⟨predicate, member, listed, refused⟩
  have unasked : .granted predicate ∉ later.guards := by
    intro asked
    have granted := List.all_eq_true.mp laterHolds _ asked
    rw [Guard.holds, refused] at granted
    cases granted
  have asks : earlier.asksBeyond varies later := by
    refine List.any_eq_true.mpr ⟨_, member, ?_⟩
    simp [listed, unasked]
  have possible : earlier.possible (knownBy later.guards) fun _ => none :=
    possible_of_holds (agrees_knownBy laterHolds)
      (fun _ _ foreseen => by cases foreseen) holds
  rw [Path.spares, decodes, asks, possible] at spares
  simpa using spares

/-- A path that comes into question asks for a predicate. -/
theorem asks_of_wider
    (widens : ∀ predicate, grants predicate → wider predicate)
    (same : ∀ predicate, varies predicate = false →
      wider predicate = grants predicate)
    (holds : path.holds wider value)
    (failed : path.holds grants value = false) :
    path.asks varies := by
  rcases exists_granted_of_wider widens same holds failed with
    ⟨predicate, member, listed, -⟩
  exact List.any_eq_true.mpr ⟨_, member, listed⟩

/-- Among steady paths, a word that decodes ends where it did. -/
theorem exists_find?_of_wider
    (widens : ∀ predicate, grants predicate → wider predicate)
    (same : ∀ predicate, varies predicate = false →
      wider predicate = grants predicate)
    {paths : List Path}
    (steady : areSteady varies paths)
    (found : paths.find? (holds grants value) = some path)
    (decodes : path.decodes) :
    ∃ other,
      paths.find? (holds wider value) = some other ∧
        other.ending = path.ending := by
  induction paths with
  | nil => cases found
  | cons first later induction =>
      simp only [areSteady, Bool.and_eq_true] at steady
      rcases steady with ⟨⟨content, spares⟩, steady⟩
      cases took : first.holds grants value with
      | true =>
          rw [List.find?_cons, took] at found
          cases found
          rw [decodes, Bool.not_true, Bool.false_or, Bool.not_eq_true']
            at content
          exact ⟨path,
            List.find?_cons_of_pos (holds_of_wider widens same content took),
            rfl⟩
      | false =>
          rw [List.find?_cons, took] at found
          cases takes : first.holds wider value with
          | true =>
              rw [asks_of_wider widens same takes took, Bool.not_true,
                Bool.false_or] at spares
              have spared :=
                List.all_eq_true.mp spares path
                  (List.mem_of_find?_eq_some found)
              exact ⟨first, List.find?_cons_of_pos takes,
                ending_eq_of_spares widens same spared decodes
                  (List.find?_some found) takes took⟩
          | false =>
              rw [List.find?_cons, takes]
              exact induction steady found

end Wider

end Path

/-! ## Programs -/

/-- Whether more of the predicates may be granted without any harm. -/
def Program.isSteady (varies : Nat → Bool) (program : Program) : Bool :=
  Path.areSteady varies program.paths

section Programs

variable
  {varies : Nat → Bool}
  {isa : Isa}
  {features more : Features}
  {word : Word}
  {program : Program}

/-- A word that an instruction matches takes a path that decodes. -/
theorem Program.exists_path_of_eval_ne_unknown
    (recognised : program.eval isa features word ≠ word.unknown) :
    ∃ path,
      program.paths.find? (Path.holds (isa.grants · features) word.value) =
          some path ∧
        path.decodes ∧
        program.eval isa features word = path.ending.outcome isa word := by
  rw [Program.eval, program.eval?_eq_firstOutcome?, Path.firstOutcome?]
    at recognised ⊢
  cases first :
      program.paths.find? (Path.holds (isa.grants · features) word.value) with
  | none =>
      rw [first] at recognised
      exact absurd rfl recognised
  | some path =>
      rw [first] at recognised
      refine ⟨path, rfl, ?_, rfl⟩
      rw [Path.decodes]
      cases ending : path.ending with
      | decode => rfl
      | fail =>
          simp only [Option.map_some, ending, Option.getD_some] at recognised
          exact absurd rfl recognised

/-- What a path does with the words that take it. -/
theorem Program.eval_of_find?
    {path : Path}
    (found :
      program.paths.find? (Path.holds (isa.grants · features) word.value) =
        some path) :
    program.eval isa features word = path.ending.outcome isa word := by
  rw [Program.eval, program.eval?_eq_firstOutcome?, Path.firstOutcome?,
    found]
  rfl

/-- With a steady program, more predicates change nothing that decodes. -/
theorem Program.eval_of_wider
    (steady : program.isSteady varies)
    (widens : ∀ predicate,
      isa.grants predicate features → isa.grants predicate more)
    (same : ∀ predicate, varies predicate = false →
      isa.grants predicate more = isa.grants predicate features)
    (recognised : program.eval isa features word ≠ word.unknown) :
    program.eval isa more word = program.eval isa features word := by
  rcases Program.exists_path_of_eval_ne_unknown recognised with
    ⟨path, found, decodes, outcome⟩
  rcases Path.exists_find?_of_wider widens same steady found decodes with
    ⟨other, foundMore, sameEnding⟩
  rw [Program.eval_of_find? foundMore, sameEnding, outcome]

end Programs

end MachineCode
