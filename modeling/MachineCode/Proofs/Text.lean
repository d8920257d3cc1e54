import Mathlib.Data.List.Basic
import MachineCode.Text.Hex

/-!
# Reading text back

A text that is put together from parts gives the parts back, if a separator
stands between them that occurs in none of them (`append_inj_of_starts`). So
parts without a comma are known from the text that lists them
(`eq_of_intercalate_eq`), and a number is known from its digits.
-/

namespace MachineCode.Text

/-! ## Parts -/

/-- Whether a text is empty or starts with a separator. -/
def Starts {α : Type} (separator : α) (text : List α) : Prop :=
  ∀ first ∈ text.head?, first = separator

theorem starts_nil {α : Type} (separator : α) : Starts separator [] := by
  simp [Starts]

theorem starts_cons {α : Type} (separator : α) (text : List α) :
    Starts separator (separator :: text) := by
  simp [Starts]

/-- The part before the first separator is known, and so is the rest. -/
theorem append_inj_of_starts
    {α : Type}
    {separator : α}
    {left right rest others : List α}
    (leftFree : separator ∉ left)
    (rightFree : separator ∉ right)
    (restStarts : Starts separator rest)
    (othersStart : Starts separator others)
    (same : left ++ rest = right ++ others) :
    left = right ∧ rest = others := by
  induction left generalizing right with
  | nil =>
      cases right with
      | nil => exact ⟨rfl, same⟩
      | cons first right =>
          rw [List.nil_append, List.cons_append] at same
          have found := restStarts first (by rw [same]; rfl)
          exact absurd (found ▸ List.mem_cons_self) rightFree
  | cons first left induction =>
      cases right with
      | nil =>
          rw [List.nil_append, List.cons_append] at same
          have found := othersStart first (by rw [← same]; rfl)
          exact absurd (found ▸ List.mem_cons_self) leftFree
      | cons second right =>
          rw [List.cons_append, List.cons_append, List.cons.injEq] at same
          rw [List.mem_cons, not_or] at leftFree rightFree
          rcases induction leftFree.2 rightFree.2 same.2 with ⟨rfl, rfl⟩
          exact ⟨by rw [same.1], rfl⟩

/-- Whether a text can stand in a list that is joined by commas. -/
structure Unbroken (text : String) : Prop where
  nonempty : text ≠ ""
  free : ',' ∉ text.toList

instance (text : String) : Decidable (Unbroken text) :=
  decidable_of_iff (text ≠ "" ∧ ',' ∉ text.toList)
    ⟨fun both => ⟨both.1, both.2⟩, fun unbroken => ⟨unbroken.1, unbroken.2⟩⟩

/-- What follows the first part of a list that is joined by commas. -/
def joinedTail : List String → List Char
  | [] => []
  | part :: parts => ", ".toList ++ (", ".intercalate (part :: parts)).toList

theorem toList_intercalate_cons (part : String) (parts : List String) :
    (", ".intercalate (part :: parts)).toList =
      part.toList ++ joinedTail parts := by
  cases parts with
  | nil => simp [joinedTail]
  | cons next parts =>
      rw [String.intercalate_cons_cons, String.toList_append,
        String.toList_append, List.append_assoc, joinedTail]

theorem starts_joinedTail (parts : List String) :
    Starts ',' (joinedTail parts) := by
  cases parts with
  | nil => exact starts_nil _
  | cons => exact starts_cons ',' _

/-- A part of a text that is joined with commas is found in the text. -/
theorem infix_intercalate
    {part : String}
    {parts : List String}
    (member : part ∈ parts) :
    part.toList <:+: (", ".intercalate parts).toList := by
  induction parts with
  | nil => cases member
  | cons first parts induction =>
      rw [toList_intercalate_cons]
      rcases List.mem_cons.mp member with rfl | later
      · exact (List.prefix_append ..).isInfix
      · cases parts with
        | nil => cases later
        | cons next parts =>
            rw [joinedTail]
            exact ((induction later).trans
              (List.suffix_append ..).isInfix).trans
                (List.suffix_append ..).isInfix

theorem intercalate_ne_empty
    {part : String}
    {parts : List String}
    (member : part ∈ parts)
    (nonempty : part ≠ "") :
    ", ".intercalate parts ≠ "" := by
  intro empty
  have inside := infix_intercalate member
  rw [empty, String.toList_empty, List.infix_nil,
    String.toList_eq_nil_iff] at inside
  exact nonempty inside

/-- Parts that follow others are listed behind them. -/
theorem toList_intercalate_append
    {parts : List String}
    (nonempty : parts ≠ [])
    (more : List String) :
    (", ".intercalate (parts ++ more)).toList =
      (", ".intercalate parts).toList ++ joinedTail more := by
  induction parts with
  | nil => exact absurd rfl nonempty
  | cons part parts induction =>
      rw [List.cons_append, toList_intercalate_cons, toList_intercalate_cons]
      cases parts with
      | nil => rw [List.nil_append, joinedTail, List.append_nil]
      | cons next parts =>
          rw [List.cons_append, joinedTail, ← List.cons_append,
            induction (List.cons_ne_nil next parts), joinedTail]
          simp only [List.append_assoc]

/-- Parts without a comma are known from the text that lists them. -/
theorem eq_of_intercalate_eq
    {lefts rights : List String}
    (leftsUnbroken : ∀ part ∈ lefts, Unbroken part)
    (rightsUnbroken : ∀ part ∈ rights, Unbroken part)
    (same : ", ".intercalate lefts = ", ".intercalate rights) :
    lefts = rights := by
  induction lefts generalizing rights with
  | nil =>
      cases rights with
      | nil => rfl
      | cons right rights =>
          rw [List.forall_mem_cons] at rightsUnbroken
          exact absurd same.symm
            (intercalate_ne_empty List.mem_cons_self
              rightsUnbroken.1.nonempty)
  | cons left lefts induction =>
      rw [List.forall_mem_cons] at leftsUnbroken
      cases rights with
      | nil =>
          exact absurd same
            (intercalate_ne_empty List.mem_cons_self leftsUnbroken.1.nonempty)
      | cons right rights =>
          rw [List.forall_mem_cons] at rightsUnbroken
          have sameText := congrArg String.toList same
          rw [toList_intercalate_cons, toList_intercalate_cons] at sameText
          rcases
              append_inj_of_starts leftsUnbroken.1.free
                rightsUnbroken.1.free (starts_joinedTail lefts)
                (starts_joinedTail rights) sameText with
            ⟨samePart, sameTail⟩
          rw [String.toList_inj] at samePart
          cases lefts with
          | nil =>
              cases rights with
              | nil => rw [samePart]
              | cons => cases sameTail
          | cons =>
              cases rights with
              | nil => cases sameTail
              | cons =>
                  rw [joinedTail, joinedTail, List.append_cancel_left_eq,
                    String.toList_inj] at sameTail
                  rw [samePart, induction leftsUnbroken.2 rightsUnbroken.2
                    sameTail]

/-! ## Numbers -/

/-- A digit of a hexadecimal number. -/
theorem exists_digitChar_of_mem
    {value : Nat}
    {digit : Char}
    (member : digit ∈ Nat.toDigits 16 value) :
    ∃ number < 16, digit = Nat.digitChar number := by
  induction value using Nat.strongRecOn with
  | ind value induction =>
      rw [Nat.toDigits_eq_if (by decide)] at member
      split at member
      · next small =>
        exact ⟨value, small, List.mem_singleton.mp member⟩
      · next large =>
        rcases List.mem_append.mp member with before | last
        · exact induction (value / 16) (by omega) before
        · exact ⟨value % 16, Nat.mod_lt _ (by decide),
            List.mem_singleton.mp last⟩

theorem digitChar_injective :
    ∀ left < 16, ∀ right < 16,
      Nat.digitChar left = Nat.digitChar right → left = right := by
  decide

theorem digitChar_ne_comma :
    ∀ number < 16, Nat.digitChar number ≠ ',' := by
  decide

/-- A number with one digit has no more of them. -/
theorem toDigits_append_ne_singleton (value : Nat) (last digit : Char) :
    Nat.toDigits 16 value ++ [last] ≠ [digit] := by
  intro same
  have before := (List.append_eq_singleton_iff.mp same)
  simp [Nat.toDigits_ne_nil] at before

/-- A number is known from its hexadecimal digits. -/
theorem toDigits_injective
    {left right : Nat}
    (same : Nat.toDigits 16 left = Nat.toDigits 16 right) :
    left = right := by
  -- Digits beyond nine are not read back by `Nat.ofDigitChars`.
  induction left using Nat.strongRecOn generalizing right with
  | ind left induction =>
      rw [Nat.toDigits_eq_if (by decide),
        @Nat.toDigits_eq_if 16 right (by decide)] at same
      split at same <;> split at same
      · next leftSmall rightSmall =>
        rw [List.cons.injEq] at same
        exact digitChar_injective left leftSmall right rightSmall same.1
      · exact absurd same.symm (toDigits_append_ne_singleton _ _ _)
      · exact absurd same (toDigits_append_ne_singleton _ _ _)
      · next leftLarge rightLarge =>
        rcases List.append_inj' same rfl with ⟨before, last⟩
        have sameQuotient := induction (left / 16) (by omega) before
        have sameDigit :=
          digitChar_injective (left % 16) (Nat.mod_lt _ (by decide))
            (right % 16) (Nat.mod_lt _ (by decide))
            (List.cons.inj last).1
        omega

theorem toList_hex (value : Nat) :
    (hex value).toList = '0' :: 'x' :: Nat.toDigits 16 value := by
  rw [hex, hexDigits, String.toList_append,
    @String.toList_ofList (Nat.toDigits 16 value)]
  rfl

/-- Hexadecimal digits are no commas. -/
theorem unbroken_hex (value : Nat) : Unbroken (hex value) where
  nonempty := by
    rw [Ne, ← String.toList_eq_nil_iff, toList_hex]
    exact List.cons_ne_nil _ _
  free := by
    rw [toList_hex, List.mem_cons, List.mem_cons, not_or, not_or]
    refine ⟨by decide, by decide, ?_⟩
    intro member
    rcases exists_digitChar_of_mem member with ⟨number, small, same⟩
    exact digitChar_ne_comma number small same.symm

/-- A number is known from its hexadecimal text. -/
theorem hex_injective {left right : Nat} (same : hex left = hex right) :
    left = right := by
  have sameText := congrArg String.toList same
  rw [toList_hex, toList_hex, List.cons_inj_right,
    List.cons_inj_right] at sameText
  exact toDigits_injective sameText

/-- Decimal text has digits and perhaps a sign. -/
theorem eq_or_isDigit_of_mem_decimal
    {value : Int}
    {character : Char}
    (member : character ∈ (toString value).toList) :
    character = '-' ∨ character.isDigit := by
  rw [Int.toString_eq_repr] at member
  cases value with
  | ofNat value =>
      rw [Int.repr, Nat.toList_repr] at member
      exact .inr
        (Nat.isDigit_of_mem_toDigits (by decide) (by decide) member)
  | negSucc value =>
      rw [Int.repr, String.toList_append, Nat.toList_repr,
        List.mem_append] at member
      rcases member with sign | digit
      · exact .inl (List.mem_singleton.mp sign)
      · exact .inr
          (Nat.isDigit_of_mem_toDigits (by decide) (by decide) digit)

theorem not_mem_decimal
    (value : Int)
    {character : Char}
    (noSign : character ≠ '-')
    (noDigit : character.isDigit = false) :
    character ∉ (toString value).toList := by
  intro member
  rcases eq_or_isDigit_of_mem_decimal member with sign | digit
  · exact noSign sign
  · rw [noDigit] at digit
    cases digit

/-- Decimal digits are no commas. -/
theorem unbroken_decimal (value : Int) : Unbroken (toString value) where
  nonempty := by
    rw [Int.toString_eq_repr]
    cases value with
    | ofNat value =>
        rw [Int.repr, Ne, ← String.toList_eq_nil_iff, Nat.toList_repr]
        exact Nat.toDigits_ne_nil
    | negSucc value =>
        rw [Int.repr, Ne, ← String.toList_eq_nil_iff, String.toList_append]
        exact List.append_ne_nil_of_left_ne_nil (by decide) _
  free := not_mem_decimal value (by decide) rfl

theorem repr_injective {left right : Nat} (same : left.repr = right.repr) :
    left = right := by
  have sameValue :=
    congrArg (fun text => Nat.ofDigitChars 10 text.toList 0) same
  simpa only [Nat.toList_repr, Nat.ofDigitChars_ten_toDigits] using sameValue

/-- The text of a number without a sign does not start with one. -/
theorem repr_ne_signed (value size : Nat) :
    value.repr ≠ "-" ++ size.repr := by
  intro same
  have sign : '-' ∈ ("-" ++ size.repr).toList := by
    rw [String.toList_append]
    exact List.mem_append_left _ (by decide)
  rw [← same, Nat.toList_repr] at sign
  exact absurd (Nat.isDigit_of_mem_toDigits (by decide) (by decide) sign)
    (by decide)

/-- A number is known from its decimal text. -/
theorem decimal_injective
    {left right : Int}
    (same : toString left = toString right) :
    left = right := by
  rw [Int.toString_eq_repr, Int.toString_eq_repr] at same
  cases left with
  | ofNat left =>
      cases right with
      | ofNat right => rw [repr_injective same]
      | negSucc right => exact absurd same (repr_ne_signed _ _)
  | negSucc left =>
      cases right with
      | ofNat right => exact absurd same.symm (repr_ne_signed _ _)
      | negSucc right =>
          rw [Int.repr, Int.repr, String.append_right_inj] at same
          rw [Nat.succ.inj (repr_injective same)]

/-- Hexadecimal text is no decimal text. -/
theorem hex_ne_decimal (number : Nat) (value : Int) :
    hex number ≠ toString value := by
  intro same
  have absent := @not_mem_decimal value 'x' (by decide) rfl
  rw [← same, toList_hex] at absent
  exact absent (.tail _ (.head _))

/-! ## Comparing texts -/

/-- A number for a text, which is compared faster than the text. -/
def code (text : String) : Nat :=
  text.toList.foldl (fun code character => 256 * code + character.toNat) 1

end MachineCode.Text
