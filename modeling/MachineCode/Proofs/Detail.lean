import MachineCode.Detail

/-!
# The registers of a detail record

A detail record lists each storage location once, as its first mention has
it, and in the order of these first mentions (`Register.ListsFirst`). One more
mention keeps that (`Register.ListsFirst.addNew`), and so do all of them
together. What is covered by the list is what is covered by the mentions
(`Register.coveredBy_distinct`), but a mention of a register may be dropped. A
register whose storage is always mentioned in the same way is listed exactly if
it is mentioned (`Register.mem_distinct_iff`).
-/

namespace MachineCode

namespace Register

/-! ## First mentions -/

/-- The place of the first mention of a storage location. -/
def firstPlace (mentions : List Register) (register : Register) : Nat :=
  mentions.findIdx fun mention => mention.sameStorage register

/-- Whether a list holds the first mention of each location, in order. -/
structure ListsFirst (mentions listed : List Register) : Prop where
  /-- What is listed is the first mention of its location. -/
  isFirst :
    ∀ register ∈ listed,
      mentions[firstPlace mentions register]? = some register
  ordered : (listed.map (firstPlace mentions)).Pairwise (· < ·)
  covered :
    ∀ register : Register,
      register.coveredBy listed = register.coveredBy mentions

theorem coveredBy_eq_true_iff
    {register : Register}
    {registers : List Register} :
    register.coveredBy registers ↔
      ∃ listed ∈ registers, listed.sameStorage register :=
  List.any_eq_true

theorem coveredBy_append
    (register : Register)
    (left right : List Register) :
    register.coveredBy (left ++ right) =
      (register.coveredBy left || register.coveredBy right) :=
  List.any_append

/-- What is the same storage is covered alike. -/
theorem coveredBy_sameStorage
    {left right : Register}
    (same : left.sameStorage right)
    (registers : List Register) :
    left.coveredBy registers = right.coveredBy registers := by
  rw [sameStorage_iff] at same
  simp only [coveredBy, sameStorage, same.1, same.2]

/-- What is the same storage is mentioned first at one place. -/
theorem firstPlace_sameStorage
    {left right : Register}
    (same : left.sameStorage right)
    (mentions : List Register) :
    firstPlace mentions left = firstPlace mentions right := by
  rw [sameStorage_iff] at same
  simp only [firstPlace, sameStorage, same.1, same.2]

section FirstPlace

variable {mentions : List Register} {register : Register}

/-- Later mentions do not move the first one. -/
theorem firstPlace_append_of_coveredBy
    (covered : register.coveredBy mentions)
    (later : List Register) :
    firstPlace (mentions ++ later) register =
      firstPlace mentions register := by
  rw [firstPlace, List.findIdx_append,
    if_pos (List.findIdx_lt_length.mpr (List.any_eq_true.mp covered))]
  rfl

/-- What was not mentioned before is mentioned first where it is added. -/
theorem firstPlace_append_self
    (uncovered : register.coveredBy mentions = false) :
    firstPlace (mentions ++ [register]) register = mentions.length := by
  have absent :
      ¬ mentions.findIdx (fun mention => mention.sameStorage register) <
        mentions.length := by
    rw [List.findIdx_lt_length, ← List.any_eq_true]
    exact Bool.eq_false_iff.mp uncovered
  rw [firstPlace, List.findIdx_append, if_neg absent, List.findIdx_cons,
    sameStorage_refl, cond_true, Nat.zero_add]

end FirstPlace

/-! ## Collecting mentions -/

namespace ListsFirst

variable {mentions listed : List Register}

theorem nil : ListsFirst [] [] where
  isFirst := nofun
  ordered := .nil
  covered _ := rfl

theorem coveredBy_of_mem
    (lists : ListsFirst mentions listed)
    {register : Register}
    (member : register ∈ listed) :
    register.coveredBy mentions := by
  rw [← lists.covered, coveredBy_eq_true_iff]
  exact ⟨register, member, sameStorage_refl register⟩

/-- What is listed keeps its place when more is mentioned. -/
theorem map_firstPlace_append
    (lists : ListsFirst mentions listed)
    (later : List Register) :
    listed.map (firstPlace (mentions ++ later)) =
      listed.map (firstPlace mentions) :=
  List.map_congr_left fun _ member =>
    firstPlace_append_of_coveredBy (lists.coveredBy_of_mem member) later

theorem isFirst_append
    (lists : ListsFirst mentions listed)
    (later : List Register)
    {register : Register}
    (member : register ∈ listed) :
    (mentions ++ later)[firstPlace (mentions ++ later) register]? =
      some register := by
  have first := lists.isFirst register member
  have inside : firstPlace mentions register < mentions.length :=
    (List.getElem?_eq_some_iff.mp first).1
  rw [firstPlace_append_of_coveredBy (lists.coveredBy_of_mem member),
    List.getElem?_append_left inside, first]

/-- A mention of what is listed already adds nothing. -/
theorem addNew_of_coveredBy
    (lists : ListsFirst mentions listed)
    {register : Register}
    (known : register.coveredBy listed) :
    ListsFirst (mentions ++ [register]) (addNew listed register) := by
  rw [addNew, if_pos known]
  refine ⟨?isFirst, ?ordered, ?covered⟩
  case isFirst => exact fun _ => lists.isFirst_append [register]
  case ordered =>
    rw [lists.map_firstPlace_append]
    exact lists.ordered
  case covered =>
    intro other
    rw [coveredBy_append, ← lists.covered]
    cases same : register.sameStorage other with
    | false => simp [coveredBy, same]
    | true =>
        rw [← coveredBy_sameStorage same, known, Bool.true_or]

/-- A mention of what is not listed yet is listed behind the others. -/
theorem addNew_of_not_coveredBy
    (lists : ListsFirst mentions listed)
    {register : Register}
    (new : register.coveredBy listed = false) :
    ListsFirst (mentions ++ [register]) (addNew listed register) := by
  have last :
      firstPlace (mentions ++ [register]) register = mentions.length :=
    firstPlace_append_self ((lists.covered register).symm.trans new)
  rw [addNew, if_neg (Bool.eq_false_iff.mp new)]
  refine ⟨?isFirst, ?ordered, ?covered⟩
  case isFirst =>
    intro other member
    rcases List.mem_append.mp member with old | added
    · exact lists.isFirst_append [register] old
    · rw [List.mem_singleton] at added
      rw [added, last, List.getElem?_concat_length]
  case ordered =>
    rw [List.map_append, List.pairwise_append, lists.map_firstPlace_append]
    refine ⟨lists.ordered, List.pairwise_singleton .., ?_⟩
    intro place old newPlace isNew
    rcases List.mem_map.mp old with ⟨other, member, rfl⟩
    rw [List.map_singleton, List.mem_singleton, last] at isNew
    rw [isNew]
    exact (List.getElem?_eq_some_iff.mp (lists.isFirst other member)).1
  case covered =>
    intro other
    rw [coveredBy_append, coveredBy_append, lists.covered]

/-- One more mention keeps a list in order. -/
theorem addNew
    (lists : ListsFirst mentions listed)
    (register : Register) :
    ListsFirst (mentions ++ [register]) (addNew listed register) := by
  cases known : register.coveredBy listed with
  | true => exact lists.addNew_of_coveredBy known
  | false => exact lists.addNew_of_not_coveredBy known

/-- All later mentions keep a list in order. -/
theorem foldl_addNew
    (lists : ListsFirst mentions listed)
    (later : List Register) :
    ListsFirst (mentions ++ later) (later.foldl Register.addNew listed) := by
  induction later generalizing mentions listed with
  | nil =>
      rw [List.append_nil]
      exact lists
  | cons register later induction =>
      rw [List.append_cons]
      exact induction (lists.addNew register)

/-- Entries with different first mentions are different storage. -/
theorem apart (lists : ListsFirst mentions listed) :
    listed.Pairwise fun left right => left.sameStorage right = false := by
  refine (List.pairwise_map.mp lists.ordered).imp ?_
  intro left right before
  rw [Bool.eq_false_iff]
  intro same
  rw [firstPlace_sameStorage same] at before
  exact Nat.lt_irrefl _ before

end ListsFirst

/-- What is listed is mentioned. -/
theorem ListsFirst.mem
    {mentions listed : List Register}
    (lists : ListsFirst mentions listed)
    {register : Register}
    (member : register ∈ listed) :
    register ∈ mentions :=
  List.mem_of_getElem? (lists.isFirst register member)

theorem listsFirst_distinct (mentions : List Register) :
    ListsFirst mentions (distinct mentions) :=
  ListsFirst.nil.foldl_addNew mentions

/-- Storage that is listed once is listed if it is mentioned. -/
theorem coveredBy_distinct
    (register : Register)
    (mentions : List Register) :
    register.coveredBy (distinct mentions) = register.coveredBy mentions :=
  (listsFirst_distinct mentions).covered register

/--
A register is listed if it is mentioned, where no other mention has the same
storage.
-/
theorem mem_distinct_iff
    {register : Register}
    {mentions : List Register}
    (alone :
      register ∈ mentions →
        ∀ other ∈ mentions, other.sameStorage register → other = register) :
    register ∈ distinct mentions ↔ register ∈ mentions := by
  constructor
  · exact (listsFirst_distinct mentions).mem
  · intro mentioned
    have covered : register.coveredBy (distinct mentions) := by
      rw [coveredBy_distinct, coveredBy_eq_true_iff]
      exact ⟨register, mentioned, sameStorage_refl register⟩
    rcases coveredBy_eq_true_iff.mp covered with ⟨other, listed, same⟩
    have also := (listsFirst_distinct mentions).mem listed
    exact alone mentioned other also same ▸ listed

end Register

end MachineCode
