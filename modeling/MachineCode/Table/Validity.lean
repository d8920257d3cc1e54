import MachineCode.Table

/-!
# Valid tables

A valid table never leads outside itself, names only formats and predicates
that exist, reads only fields that its words have, and compares a field only
with values that the field can take.

A `filter` compares whatever field was loaded last, which depends on the way
that led to it. The check follows the table once from the front and keeps, for
each entry ahead, the set of widths that the loaded field may have there: bit
0 of the set says that nothing may have been loaded, bit `n` that a field of
`n` bits may have been.
-/

namespace MachineCode

attribute [local instance (2000)] instPowNat

/-- Why a table is not valid. -/
inductive TableError where
  | empty (table : String)
  /-- The table cannot be laid out: a body is too long to be skipped. -/
  | skipOverflow (table : String) (position : Nat)
  | skipOutOfBounds (table : String) (position : Nat)
  | fieldOutOfRange (table : String) (position width : Nat)
  | valueTooWide (table : String) (position : Nat)
  | unknownFormat (table : String) (position format : Nat)
  | unknownPredicate (table : String) (position predicate : Nat)
  /-- A field is compared before any field was loaded. -/
  | danglingFilter (table : String) (position : Nat)
  | expectWithoutDecode (table : String) (position : Nat)
  /-- The last entry does not end the table. -/
  | unterminated (table : String)
deriving DecidableEq, Repr

/-- The wording of a table error. -/
def TableError.message : TableError → String
  | .empty table => "table " ++ table ++ " is empty"
  | .skipOverflow table position =>
    "table " ++ table ++ ": skip distance at entry " ++ toString position ++
      " does not fit in 16 bits"
  | .skipOutOfBounds table position =>
    "table " ++ table ++ ": entry " ++ toString position ++
      " skips past the end"
  | .fieldOutOfRange table position width =>
    "table " ++ table ++ ": field at entry " ++ toString position ++
      " lies outside a " ++ toString width ++ "-bit word"
  | .valueTooWide table position =>
    "table " ++ table ++ ": value at entry " ++ toString position ++
      " does not fit its field"
  | .unknownFormat table position format =>
    "table " ++ table ++ ": entry " ++ toString position ++
      " names unknown decoder " ++ toString format
  | .unknownPredicate table position predicate =>
    "table " ++ table ++ ": entry " ++ toString position ++
      " names unknown predicate " ++ toString predicate
  | .danglingFilter table position =>
    "table " ++ table ++ ": filter at entry " ++ toString position ++
      " has no preceding field extraction"
  | .expectWithoutDecode table position =>
    "table " ++ table ++ ": soft-fail mask at entry " ++ toString position ++
      " is not followed by a decode"
  | .unterminated table =>
    "table " ++ table ++ " does not end in a terminal entry"

namespace Table

/-- Whether a field can take the value. -/
def fits (value length : Nat) : Bool :=
  value < 2 ^ length

/-- Whether words of `width` bits have the field. -/
def hasField (width start length : Nat) : Bool :=
  length ≠ 0 && length ≤ 64 && start + length ≤ width

/-- A set of widths that a loaded field may have. -/
abbrev WidthSet :=
  Nat

namespace WidthSet

/-- The least width in the set. -/
def least? (widths : WidthSet) : Option Nat :=
  (List.range 65).find? fun width => widths.testBit width

/-- Add the widths to the set at a place of a list. -/
def addAt (sets : List WidthSet) (place : Nat) (widths : WidthSet) :
    List WidthSet :=
  sets.modify place (· ||| widths)

end WidthSet

/-- What the entries of a table may refer to. -/
structure Limits where
  name : String
  width : Nat
  formats : Nat
  predicates : Nat
deriving DecidableEq, Repr

namespace Limits

/--
The fault of one entry, if it has one. `widths` is the set of widths the
loaded field may have here, and `next` the entry that follows.
-/
def fault?
    (limits : Limits)
    (position : Nat)
    (widths : WidthSet)
    (next : Option Entry) :
    Entry → Option TableError
  | .extract start length =>
    if hasField limits.width start length then none
    else some (.fieldOutOfRange limits.name position limits.width)
  | .filter value _ =>
    if widths.testBit 0 then
      some (.danglingFilter limits.name position)
    else
      match WidthSet.least? widths with
      | none => none
      | some width =>
        if fits value width then none
        else some (.valueTooWide limits.name position)
  | .check start length value _ =>
    if !hasField limits.width start length then
      some (.fieldOutOfRange limits.name position limits.width)
    else if fits value length then
      none
    else
      some (.valueTooWide limits.name position)
  | .require predicate _ =>
    if predicate < limits.predicates then none
    else some (.unknownPredicate limits.name position predicate)
  | .expect zeros ones =>
    if !(next.map Entry.isDecode).getD false then
      some (.expectWithoutDecode limits.name position)
    else if fits (zeros ||| ones) limits.width then
      none
    else
      some (.valueTooWide limits.name position)
  | .decode _ format =>
    if format < limits.formats then none
    else some (.unknownFormat limits.name position format)
  | .fail => none

/-- The widths that the loaded field may have just after an entry. -/
def widthsAfter (widths : WidthSet) : Entry → WidthSet
  | .extract _ length => 2 ^ length
  | .decode _ _ | .fail => 0
  | _ => widths

/--
The first fault from some position on. `sets` holds the width set of each
remaining entry, as far as the entries before them decide it.
-/
def firstFault?
    (limits : Limits)
    (position : Nat) :
    List Entry → List WidthSet → Option TableError
  | [], _ => none
  | entry :: rest, sets =>
    let widths := sets.headD 0
    let ahead := sets.tail
    let landing := entry.skip?.getD 0
    if entry.skip?.isSome && rest.length ≤ landing then
      some (.skipOutOfBounds limits.name position)
    else
      match limits.fault? position widths rest.head? entry with
      | some error => some error
      | none =>
        let skipped :=
          if entry.skip?.isSome then
            WidthSet.addAt ahead landing widths
          else
            ahead
        firstFault? limits (position + 1) rest
          (WidthSet.addAt skipped 0 (widthsAfter widths entry))

end Limits

/--
Check a table against an instruction set that has `formats` operand formats
and `predicates` predicates.
-/
def validate (table : Table) (formats predicates : Nat) :
    Except TableError Unit :=
  match table.entries.getLast? with
  | none => .error (.empty table.name)
  | some last =>
    if !last.isTerminal then
      .error (.unterminated table.name)
    else
      let limits : Limits := ⟨table.name, table.width, formats, predicates⟩
      let sets := (List.replicate table.size 0).modify 0 fun _ => 1
      match limits.firstFault? 0 table.entries sets with
      | some error => .error error
      | none => .ok ()

end Table

end MachineCode
