import MachineCode.Proofs.Table.Layout

/-!
# Paths through a decode program

A structured program is a list of paths, each with the tests that hold on the
way and the statement at its end. A word takes the first path whose tests hold
(`Program.eval?_eq_firstOutcome?`). What a program can do with a word is
therefore read off a finite list: to invert a decoding is to look at one path,
and to predict one is to look for the first path that is possible.

Where the body of a test always ends, the statements behind it are reached
only if the test fails, and their paths say so.
-/

namespace MachineCode

/-- A test on the way through a program. -/
inductive Guard where
  | field (start length value : Nat)
  /-- The field has another value. -/
  | otherField (start length value : Nat)
  | granted (predicate : Nat)
  /-- The predicate is not granted. -/
  | refused (predicate : Nat)
deriving DecidableEq, Repr

namespace Guard

/-- Whether the test holds for a word under the granted predicates. -/
def holds (grants : Nat → Bool) (value : Nat) : Guard → Bool
  | .field start length wanted => bitField value start length = wanted
  | .otherField start length wanted => bitField value start length ≠ wanted
  | .granted predicate => grants predicate
  | .refused predicate => !grants predicate

end Guard

/-- The statement at the end of a path. -/
inductive Ending where
  | decode (opcode format zeros ones : Nat)
  | fail
deriving DecidableEq, Repr

/-- What the end of a path does with a word. -/
def Ending.outcome (isa : Isa) (word : Word) : Ending → Outcome
  | .decode opcode format zeros ones =>
    isa.finishDecode word opcode format (violates word.value zeros ones)
  | .fail => word.unknown

/-- A way through a program. -/
structure Path where
  guards : List Guard
  ending : Ending
deriving DecidableEq, Repr

namespace Path

/-- The path behind one more test. -/
def behind (guard : Guard) (path : Path) : Path :=
  { path with guards := guard :: path.guards }

/-- Whether all tests of the path hold. -/
def holds (grants : Nat → Bool) (value : Nat) (path : Path) : Bool :=
  path.guards.all (Guard.holds grants value)

theorem holds_behind
    (grants : Nat → Bool)
    (value : Nat)
    (guard : Guard)
    (path : Path) :
    (path.behind guard).holds grants value =
      (guard.holds grants value && path.holds grants value) := by
  simp [holds, behind]

/-- Behind a test, the first path that holds is the one without the test. -/
theorem find?_map_behind
    (grants : Nat → Bool)
    (value : Nat)
    (guard : Guard)
    (paths : List Path) :
    (paths.map (behind guard)).find? (holds grants value) =
      if guard.holds grants value then
        (paths.find? (holds grants value)).map (behind guard)
      else
        none := by
  rw [List.find?_map]
  split
  · next passed =>
    congr 2
    funext path
    simp [holds_behind, passed]
  · next failed =>
    rw [Option.map_eq_none_iff, List.find?_eq_none]
    intro path _
    simp [holds_behind, failed]

end Path

/-! ## The paths of a program -/

/-- Whether no word passes all statements of the program. -/
def Program.ends : Program → Bool
  | .done => false
  | .check _ _ _ _ rest => rest.ends
  | .require _ _ rest => rest.ends
  | .switch _ _ _ rest => rest.ends
  | .decode _ _ _ | .decodeExpecting _ _ _ _ _ | .fail _ => true

mutual

/-- The ways through a program, in the order in which they are tried. -/
def Program.paths : Program → List Path
  | .done => []
  | .check start length value body rest =>
    body.paths.map (Path.behind (.field start length value)) ++
      if body.ends then
        rest.paths.map (Path.behind (.otherField start length value))
      else
        rest.paths
  | .require predicate body rest =>
    body.paths.map (Path.behind (.granted predicate)) ++
      if body.ends then
        rest.paths.map (Path.behind (.refused predicate))
      else
        rest.paths
  | .switch start length cases rest => cases.paths start length ++ rest.paths
  | .decode opcode format _ => [⟨[], .decode opcode format 0 0⟩]
  | .decodeExpecting opcode format zeros ones _ =>
    [⟨[], .decode opcode format zeros ones⟩]
  | .fail _ => [⟨[], .fail⟩]

/-- The ways through the cases of a field; no case is passed. -/
def Cases.paths (start length : Nat) : Cases → List Path
  | .done => []
  | .case value body rest =>
    (body.paths ++ [Path.mk [] .fail]).map
        (Path.behind (.field start length value)) ++
      rest.paths start length

end

section Selection

variable {isa : Isa} {features : Features} {word : Word}

/-- What the first path that a word takes does with the word. -/
def Path.firstOutcome?
    (isa : Isa)
    (features : Features)
    (word : Word)
    (paths : List Path) :
    Option Outcome :=
  (paths.find? (Path.holds (isa.grants · features) word.value)).map
    fun path => path.ending.outcome isa word

theorem Path.firstOutcome?_append (first second : List Path) :
    Path.firstOutcome? isa features word (first ++ second) =
      (Path.firstOutcome? isa features word first).or
        (Path.firstOutcome? isa features word second) := by
  rw [firstOutcome?, List.find?_append, Option.map_or]
  rfl

theorem Path.firstOutcome?_map_behind (guard : Guard) (paths : List Path) :
    Path.firstOutcome? isa features word (paths.map (Path.behind guard)) =
      if guard.holds (isa.grants · features) word.value then
        Path.firstOutcome? isa features word paths
      else
        none := by
  rw [firstOutcome?, Path.find?_map_behind]
  split
  · rw [Option.map_map]
    rfl
  · rfl

@[simp]
theorem Path.firstOutcome?_unguarded (ending : Ending) :
    Path.firstOutcome? isa features word [⟨[], ending⟩] =
      some (ending.outcome isa word) :=
  rfl

/-- A program that ends does so for every word. -/
theorem Program.exists_eval?_of_ends :
    ∀ (program : Program), program.ends →
      ∃ outcome, program.eval? isa features word = some outcome
  | .done, ends => by cases ends
  | .check start length value body rest, ends => by
    rcases rest.exists_eval?_of_ends ends with ⟨outcome, passed⟩
    rw [Program.eval?_check, passed]
    split
    · cases body.eval? isa features word with
      | none => exact ⟨outcome, rfl⟩
      | some earlier => exact ⟨earlier, rfl⟩
    · exact ⟨outcome, rfl⟩
  | .require predicate body rest, ends => by
    rcases rest.exists_eval?_of_ends ends with ⟨outcome, passed⟩
    rw [Program.eval?_require, passed]
    split
    · cases body.eval? isa features word with
      | none => exact ⟨outcome, rfl⟩
      | some earlier => exact ⟨earlier, rfl⟩
    · exact ⟨outcome, rfl⟩
  | .switch start length cases rest, ends => by
    rcases rest.exists_eval?_of_ends ends with ⟨outcome, passed⟩
    rw [Program.eval?_switch, passed]
    cases cases.eval? isa features word _ with
    | none => exact ⟨outcome, rfl⟩
    | some earlier => exact ⟨earlier, rfl⟩
  | .decode _ _ _, _ => ⟨_, rfl⟩
  | .decodeExpecting _ _ _ _ _, _ => ⟨_, rfl⟩
  | .fail _, _ => ⟨_, rfl⟩

/--
A body and what stands behind it: the paths behind may say that the test has
failed, because a body that ends leaves nothing over.
-/
theorem Program.or_firstOutcome?
    {body rest : Program}
    {passed failed : Guard}
    (opposite :
      failed.holds (isa.grants · features) word.value =
        !passed.holds (isa.grants · features) word.value)
    (bodyPaths :
      body.eval? isa features word =
        Path.firstOutcome? isa features word body.paths)
    (restPaths :
      rest.eval? isa features word =
        Path.firstOutcome? isa features word rest.paths) :
    Path.firstOutcome? isa features word
        (body.paths.map (Path.behind passed) ++
          if body.ends then rest.paths.map (Path.behind failed)
          else rest.paths) =
      if passed.holds (isa.grants · features) word.value then
        (body.eval? isa features word).or (rest.eval? isa features word)
      else
        rest.eval? isa features word := by
  rw [Path.firstOutcome?_append, Path.firstOutcome?_map_behind, bodyPaths,
    restPaths]
  by_cases ends : body.ends
  · rcases @Program.exists_eval?_of_ends isa features word body ends with
      ⟨outcome, ended⟩
    rw [bodyPaths] at ended
    rw [if_pos ends, Path.firstOutcome?_map_behind, opposite, ended]
    cases passed.holds (isa.grants · features) word.value <;> simp
  · rw [if_neg ends]
    split <;> simp

mutual

/-- A word takes the first path through a program whose tests hold. -/
theorem Program.eval?_eq_firstOutcome? :
    ∀ (program : Program),
      program.eval? isa features word =
        Path.firstOutcome? isa features word program.paths
  | .done => rfl
  | .check start length value body rest => by
    rw [Program.eval?_check, Program.paths,
      Program.or_firstOutcome? (by simp [Guard.holds])
        body.eval?_eq_firstOutcome? rest.eval?_eq_firstOutcome?]
    simp [Guard.holds]
  | .require predicate body rest => by
    rw [Program.eval?_require, Program.paths,
      Program.or_firstOutcome? (by simp [Guard.holds])
        body.eval?_eq_firstOutcome? rest.eval?_eq_firstOutcome?]
    rfl
  | .switch start length cases rest => by
    rw [Program.eval?_switch, Program.paths, Path.firstOutcome?_append,
      cases.eval?_eq_firstOutcome? start length,
      rest.eval?_eq_firstOutcome?]
  | .decode opcode format rest => by
    simp [Program.eval?, Program.paths, Ending.outcome, violates]
  | .decodeExpecting _ _ _ _ _ => rfl
  | .fail _ => rfl

/-- A word takes the first path through the cases whose tests hold. -/
theorem Cases.eval?_eq_firstOutcome? :
    ∀ (cases : Cases) (start length : Nat),
      cases.eval? isa features word (bitField word.value start length) =
        Path.firstOutcome? isa features word (cases.paths start length)
  | .done, _, _ => rfl
  | .case value body rest, start, length => by
    rw [Cases.eval?, Cases.paths, Path.firstOutcome?_append,
      Path.firstOutcome?_map_behind, Path.firstOutcome?_append,
      ← body.eval?_eq_firstOutcome?, ← rest.eval?_eq_firstOutcome?]
    simp only [Guard.holds, decide_eq_true_eq]
    split
    · cases body.eval? isa features word <;> rfl
    · rfl

end

end Selection

/-- What decodes has taken a path that ends with its opcode. -/
theorem Program.exists_path_of_eval
    {isa : Isa}
    {features : Features}
    {word : Word}
    {program : Program}
    {raw : RawInstruction}
    (decoded : program.eval isa features word = .ok raw) :
    ∃ path ∈ program.paths,
      path.holds (isa.grants · features) word.value ∧
        ∃ opcode format zeros ones,
          path.ending = .decode opcode format zeros ones ∧
            isa.finishDecode word opcode format
              (violates word.value zeros ones) = .ok raw := by
  rw [Program.eval, program.eval?_eq_firstOutcome?,
    Path.firstOutcome?] at decoded
  cases first :
      program.paths.find? (Path.holds (isa.grants · features) word.value) with
  | none =>
      rw [first] at decoded
      cases decoded
  | some path =>
      rw [first] at decoded
      have holds := List.find?_some first
      refine ⟨path, List.mem_of_find?_eq_some first, holds, ?_⟩
      cases ending : path.ending with
      | fail =>
          simp only [Option.map_some, ending, Option.getD_some] at decoded
          cases decoded
      | decode opcode format zeros ones =>
          simp only [Option.map_some, ending, Option.getD_some] at decoded
          exact ⟨opcode, format, zeros, ones, rfl, decoded⟩

end MachineCode
