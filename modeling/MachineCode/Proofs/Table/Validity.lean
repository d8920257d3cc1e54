import MachineCode.Table.Validity
import MachineCode.Word
import Mathlib.Tactic.ByContra

/-!
# What validity establishes

The check of a table walks over its entries once and keeps, for each entry
ahead, a set of widths that the loaded field may have there. This module turns
an accepted walk into facts about the entries: what the walk has checked at
the entry where it stands, and how a width travels from there to the entries
that can be visited next.

`Clear` is a walk that finds no fault from some position on. A width that is
expected at an entry further ahead is still expected when the walk gets there
(`Clear.drop`), since sets only grow.
-/

namespace MachineCode

/-- Whether an entry reads only a field that words of a width have. -/
def Entry.ReadsWithin (width : Nat) : Entry → Prop
  | .extract start length => Table.hasField width start length
  | .check start length _ _ => Table.hasField width start length
  | _ => True

theorem Word.field?_eq_some_of_hasField
    {word : Word}
    {start length : Nat}
    (present : Table.hasField word.width start length) :
    word.field? start length = some (bitField word.value start length) := by
  simp only [Table.hasField, Bool.and_eq_true, decide_eq_true_eq] at present
  exact Word.field?_eq_some present.1.1 present.2

namespace Table

/-! ## Expected widths -/

namespace WidthSet

/-- Whether a width is in the set that stands at a place. -/
def Expects (sets : List WidthSet) (place width : Nat) : Prop :=
  ∃ widths, sets[place]? = some widths ∧ widths.testBit width

theorem Expects.lt_length
    {sets : List WidthSet}
    {place width : Nat}
    (expected : Expects sets place width) :
    place < sets.length := by
  rcases expected with ⟨widths, found, -⟩
  exact (List.getElem?_eq_some_iff.mp found).1

@[simp]
theorem length_addAt
    (sets : List WidthSet)
    (place : Nat)
    (widths : WidthSet) :
    (addAt sets place widths).length = sets.length :=
  List.length_modify ..

/-- To add widths takes none away. -/
theorem Expects.addAt
    {sets : List WidthSet}
    {place width : Nat}
    (expected : Expects sets place width)
    (other : Nat)
    (added : WidthSet) :
    Expects (addAt sets other added) place width := by
  rcases expected with ⟨widths, found, member⟩
  by_cases same : other = place
  · refine ⟨widths ||| added, ?_, ?_⟩
    · simp [WidthSet.addAt, found, same]
    · simp [Nat.testBit_or, member]
  · refine ⟨widths, ?_, member⟩
    simp [WidthSet.addAt, found, same]

/-- Added widths are expected at the place where they are added. -/
theorem expects_addAt
    {sets : List WidthSet}
    {place width : Nat}
    {added : WidthSet}
    (inside : place < sets.length)
    (member : added.testBit width) :
    Expects (addAt sets place added) place width := by
  refine ⟨sets[place] ||| added, ?_, ?_⟩
  · simp [WidthSet.addAt, List.getElem?_eq_getElem inside]
  · simp [Nat.testBit_or, member]

theorem Expects.head
    {widths : WidthSet}
    {ahead : List WidthSet}
    {width : Nat}
    (expected : Expects (widths :: ahead) 0 width) :
    widths.testBit width := by
  rcases expected with ⟨found, same, member⟩
  cases same
  exact member

end WidthSet

/-! ## One step of the walk -/

namespace Limits

open WidthSet

/-- The sets of the entries behind `entry`, once the walk has passed it. -/
def setsAfter (widths : WidthSet) (ahead : List WidthSet) (entry : Entry) :
    List WidthSet :=
  addAt
    (match entry.skip? with
      | some skip => addAt ahead skip widths
      | none => ahead)
    0 (widthsAfter widths entry)

@[simp]
theorem length_setsAfter
    (widths : WidthSet)
    (ahead : List WidthSet)
    (entry : Entry) :
    (setsAfter widths ahead entry).length = ahead.length := by
  cases skip : entry.skip? <;> simp [setsAfter, skip]

/-- A walk that keeps one set for each entry and finds no fault. -/
structure Clear
    (limits : Limits)
    (position : Nat)
    (entries : List Entry)
    (sets : List WidthSet) :
    Prop where
  lengths : sets.length = entries.length
  noFault : limits.firstFault? position entries sets = none

variable
  {limits : Limits}
  {position width : Nat}
  {entry : Entry}
  {entries : List Entry}
  {widths : WidthSet}
  {ahead sets : List WidthSet}

theorem Clear.skip_lt
    (clear : limits.Clear position (entry :: entries) (widths :: ahead))
    {skip : Nat}
    (skips : entry.skip? = some skip) :
    skip < entries.length := by
  by_contra outside
  have noFault := clear.noFault
  simp [firstFault?, skips, Nat.not_lt.mp outside] at noFault

theorem Clear.fault?_eq_none
    (clear : limits.Clear position (entry :: entries) (widths :: ahead)) :
    limits.fault? position widths entries.head? entry = none := by
  have noFault := clear.noFault
  simp only [firstFault?, List.headD_cons] at noFault
  split at noFault
  · cases noFault
  · split at noFault
    · cases noFault
    · assumption

/-- The walk goes on behind an entry that it has passed. -/
theorem Clear.tail
    (clear : limits.Clear position (entry :: entries) (widths :: ahead)) :
    limits.Clear (position + 1) entries (setsAfter widths ahead entry) where
  lengths := by
    have lengths := clear.lengths
    simp only [List.length_cons] at lengths
    simp only [length_setsAfter]
    omega
  noFault := by
    have noFault := clear.noFault
    simp only [firstFault?, List.headD_cons, List.tail_cons] at noFault
    split at noFault
    · cases noFault
    · split at noFault
      · cases noFault
      · cases skip : entry.skip? <;>
          simpa [setsAfter, skip] using noFault

/-- What is expected further ahead is expected when the walk gets there. -/
theorem Clear.drop
    (clear : limits.Clear position entries sets)
    {place : Nat}
    (expected : Expects sets place width) :
    ∃ reached,
      limits.Clear (position + place) (entries.drop place) reached ∧
        Expects reached 0 width := by
  induction place generalizing position entries sets with
  | zero => exact ⟨sets, clear, expected⟩
  | succ place induction =>
      have inside := expected.lt_length
      cases sets with
      | nil => simp at inside
      | cons widths ahead =>
          cases entries with
          | nil => simpa using clear.lengths
          | cons entry entries =>
              rcases expected with ⟨found, same, member⟩
              have behind :
                  Expects (setsAfter widths ahead entry) place width := by
                have expectedAhead : Expects ahead place width :=
                  ⟨found, same, member⟩
                unfold setsAfter
                split
                · exact (expectedAhead.addAt _ _).addAt _ _
                · exact expectedAhead.addAt _ _
              rcases induction clear.tail behind with
                ⟨reached, clearThere, expectedThere⟩
              refine ⟨reached, ?_, expectedThere⟩
              have shifted :
                  position + 1 + place = position + (place + 1) := by
                omega
              rw [← shifted]
              exact clearThere

/-! ## Where a width travels -/

/-- A failed test carries the loaded field to the entry it skips to. -/
theorem Clear.expects_skip
    (clear : limits.Clear position (entry :: entries) (widths :: ahead))
    {skip : Nat}
    (skips : entry.skip? = some skip)
    (member : widths.testBit width) :
    Expects (setsAfter widths ahead entry) skip width := by
  have inside := clear.skip_lt skips
  have lengths := clear.lengths
  simp only [List.length_cons] at lengths
  simp only [setsAfter, skips]
  exact (expects_addAt (by omega) member).addAt _ _

/-- An entry hands on its widths to the entry behind it. -/
theorem Clear.expects_next
    (clear : limits.Clear position (entry :: entries) (widths :: ahead))
    (nonempty : entries ≠ [])
    (member : (widthsAfter widths entry).testBit width) :
    Expects (setsAfter widths ahead entry) 0 width := by
  have lengths := clear.lengths
  have positive := List.length_pos_iff.mpr nonempty
  simp only [List.length_cons] at lengths
  refine expects_addAt ?_ member
  cases entry.skip? with
  | none =>
      show 0 < ahead.length
      omega
  | some skip =>
      rw [length_addAt]
      omega

/-! ## What is checked at an entry -/

theorem readsWithin_of_fault?_eq_none
    {next : Option Entry}
    (faultless : limits.fault? position widths next entry = none) :
    entry.ReadsWithin limits.width := by
  cases entry with
  | extract start length =>
      simpa [fault?, Entry.ReadsWithin] using faultless
  | check start length value skip =>
      by_contra outside
      simp only [Entry.ReadsWithin, Bool.not_eq_true] at outside
      simp [fault?, outside] at faultless
  | filter | require | expect | decode | fail => trivial

/-- A compared field has been loaded. -/
theorem width_ne_zero_of_filter
    {value skip : Nat}
    {next : Option Entry}
    (faultless :
      limits.fault? position widths next (.filter value skip) = none)
    (member : widths.testBit width) :
    width ≠ 0 := by
  rintro rfl
  simp [fault?, member] at faultless

/-- An expectation is followed by its `decode`. -/
theorem next_of_expect
    {zeros ones : Nat}
    {next : Option Entry}
    (faultless :
      limits.fault? position widths next (.expect zeros ones) = none) :
    ∃ opcode format, next = some (.decode opcode format) := by
  cases next with
  | none => simp [fault?] at faultless
  | some entry =>
      cases entry with
      | decode opcode format => exact ⟨opcode, format, rfl⟩
      | extract | filter | check | require | expect | fail =>
          simp [fault?, Entry.isDecode] at faultless

theorem format_lt_of_decode
    {opcode format : Nat}
    {next : Option Entry}
    (faultless :
      limits.fault? position widths next (.decode opcode format) = none) :
    format < limits.formats := by
  by_contra outside
  simp [fault?, outside] at faultless

theorem predicate_lt_of_require
    {predicate skip : Nat}
    {next : Option Entry}
    (faultless :
      limits.fault? position widths next (.require predicate skip) = none) :
    predicate < limits.predicates := by
  by_contra outside
  simp [fault?, outside] at faultless

/-- A walk without fault meets only fields that the words have. -/
theorem Clear.readsWithin
    (clear : limits.Clear position entries sets) :
    ∀ entry ∈ entries, entry.ReadsWithin limits.width := by
  induction entries generalizing position sets with
  | nil => simp
  | cons entry entries induction =>
      cases sets with
      | nil => simpa using clear.lengths
      | cons widths ahead =>
          rw [List.forall_mem_cons]
          exact ⟨readsWithin_of_fault?_eq_none clear.fault?_eq_none,
            induction clear.tail⟩

end Limits

/-! ## Accepted tables -/

section Accepted

variable {table : Table} {formats predicates : Nat}

/-- What the entries of a table may refer to when it is checked. -/
def limits (table : Table) (formats predicates : Nat) : Limits :=
  ⟨table.name, table.width, formats, predicates⟩

theorem validate_of_isOk
    (accepted : (table.validate formats predicates).isOk) :
    table.validate formats predicates = .ok () := by
  cases verdict : table.validate formats predicates with
  | ok => rfl
  | error =>
      rw [verdict] at accepted
      cases accepted

/-- The last entry of a valid table is terminal. -/
theorem exists_getLast?_of_validate
    (valid : table.validate formats predicates = .ok ()) :
    ∃ last, table.entries.getLast? = some last ∧ last.isTerminal := by
  unfold validate at valid
  split at valid
  · cases valid
  · next last found =>
    refine ⟨last, found, ?_⟩
    cases terminal : last.isTerminal with
    | true => rfl
    | false =>
        rw [terminal] at valid
        cases valid

/-- The walk over a valid table expects that nothing is loaded at first. -/
theorem exists_clear_of_validate
    (valid : table.validate formats predicates = .ok ()) :
    ∃ sets,
      (table.limits formats predicates).Clear 0 table.entries sets ∧
        WidthSet.Expects sets 0 0 := by
  rcases exists_getLast?_of_validate valid with ⟨last, found, terminal⟩
  have nonempty : 0 < table.entries.length :=
    List.length_pos_iff.mpr (by rintro empty; simp [empty] at found)
  refine ⟨(List.replicate table.size 0).modify 0 fun _ => 1, ⟨?_, ?_⟩, ?_⟩
  · simp [size]
  · simp only [validate, found, terminal] at valid
    cases walk : Limits.firstFault? (table.limits formats predicates) 0
        table.entries ((List.replicate table.size 0).modify 0 fun _ => 1) with
    | none => rfl
    | some fault => simp [limits] at walk; simp [walk] at valid
  · refine ⟨1, ?_, rfl⟩
    simp [size, nonempty]

end Accepted

end Table

end MachineCode
