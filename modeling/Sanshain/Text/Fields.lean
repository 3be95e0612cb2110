import Mathlib.Data.List.TakeWhile
import Sanshain.Text.Scan

namespace Sanshain.Text

section Fields

variable {Value : Type} {separator : Char} {Field Narrow : List Char → Value → Prop}

/-- A text of fields with a separator between each two, and what they denote. -/
inductive Fields (separator : Char) (Field : List Char → Value → Prop) : List Char → List Value → Prop
  | last {field : List Char} {value : Value} (denotes : Field field value) :
      Fields separator Field field [value]
  | more {field rest : List Char} {value : Value} {values : List Value} (denotes : Field field value)
      (others : Fields separator Field rest values) :
      Fields separator Field (field ++ separator :: rest) (value :: values)

theorem splitChars_of_notMem {text : List Char} (absent : separator ∉ text) :
    splitChars separator text = [text] := by
  induction text with
  | nil => rfl
  | cons c rest ih =>
      rw [List.mem_cons, not_or] at absent
      rw [splitChars, if_neg (Ne.symm absent.1), ih absent.2]

theorem splitChars_append {field : List Char} (absent : separator ∉ field) (rest : List Char) :
    splitChars separator (field ++ separator :: rest) = field :: splitChars separator rest := by
  induction field with
  | nil => rw [List.nil_append, splitChars, if_pos rfl]
  | cons c more ih =>
      rw [List.mem_cons, not_or] at absent
      rw [List.cons_append, splitChars, if_neg (Ne.symm absent.1), ih absent.2]

theorem splitOnce_spec (separator : Char) (text : List Char) :
    (splitOnce separator text = none ∧ separator ∉ text) ∨
      ∃ front back, splitOnce separator text = some (front, back) ∧ separator ∉ front ∧
        text = front ++ separator :: back := by
  have before : separator ∉ text.takeWhile (· ≠ separator) := by
    intro among
    have differs := List.mem_takeWhile_imp among
    simp at differs
  have whole : text.takeWhile (· ≠ separator) ++ text.dropWhile (· ≠ separator) = text :=
    List.takeWhile_append_dropWhile
  unfold splitOnce
  cases found : text.dropWhile (· ≠ separator) with
  | nil =>
      rw [found, List.append_nil] at whole
      exact .inl ⟨rfl, whole ▸ before⟩
  | cons c after =>
      have stops := List.head?_dropWhile_not (· ≠ separator) text
      rw [found, List.head?_cons] at stops
      have same : c = separator := by simpa using stops
      rw [found, same] at whole
      exact .inr ⟨_, after, rfl, before, whole.symm⟩

/-- The text around the last occurrence of a character. -/
def rsplitOnce (separator : Char) (text : List Char) : Option (List Char × List Char) :=
  (splitOnce separator text.reverse).map fun parts => (parts.2.reverse, parts.1.reverse)

theorem rsplitOnce_spec (separator : Char) (text : List Char) :
    (rsplitOnce separator text = none ∧ separator ∉ text) ∨
      ∃ front back, rsplitOnce separator text = some (front, back) ∧ separator ∉ back ∧
        text = front ++ separator :: back := by
  unfold rsplitOnce
  obtain ⟨found, plain⟩ | ⟨back, front, found, plain, whole⟩ := splitOnce_spec separator text.reverse
  · rw [found]
    exact .inl ⟨rfl, fun among => plain (List.mem_reverse.mpr among)⟩
  · rw [found]
    refine .inr ⟨front.reverse, back.reverse, rfl, fun among => plain (List.mem_reverse.mp among), ?_⟩
    rw [← List.reverse_reverse text, whole]
    simp

/-- Only the last occurrence has none after it. -/
theorem rsplitOnce_append {back : List Char} (absent : separator ∉ back) (front : List Char) :
    rsplitOnce separator (front ++ separator :: back) = some (front, back) := by
  obtain ⟨-, plain⟩ | ⟨first, last, found, plain, whole⟩ :=
    rsplitOnce_spec separator (front ++ separator :: back)
  · exact absurd (by simp) plain
  · have same := congrArg List.reverse whole
    simp only [List.reverse_append, List.reverse_cons, List.append_assoc, List.singleton_append] at same
    have heads := splitChars_append (fun among => absent (List.mem_reverse.mp among)) front.reverse
    have tails := splitChars_append (fun among => plain (List.mem_reverse.mp among)) first.reverse
    rw [same, tails] at heads
    have backs := List.reverse_inj.mp (List.cons_eq_cons.mp heads).1
    subst backs
    rw [List.append_left_inj] at whole
    rw [found, whole]

/-- Splitting at the separator and reading each piece reads exactly the texts of such fields. -/
theorem splitChars_mapM_iff {read : List Char → Option Value}
    (reads : ∀ field value, read field = some value ↔ Field field value)
    (apart : ∀ field value, Field field value → separator ∉ field) (text : List Char)
    (values : List Value) :
    (splitChars separator text).mapM read = some values ↔ Fields separator Field text values := by
  constructor
  · intro all
    induction size : text.length using Nat.strongRecOn generalizing text values with
    | ind size ih =>
        by_cases among : separator ∈ text
        · obtain ⟨field, rest, rfl, absent⟩ := List.eq_append_cons_of_mem among
          rw [splitChars_append absent, List.mapM_cons] at all
          obtain ⟨value, first, all⟩ := Option.bind_eq_some_iff.mp all
          obtain ⟨others, later, all⟩ := Option.bind_eq_some_iff.mp all
          cases all
          refine .more ((reads field value).mp first) (ih rest.length ?_ rest others later rfl)
          rw [← size]
          simp
          omega
        · rw [splitChars_of_notMem among, List.mapM_cons] at all
          obtain ⟨value, first, all⟩ := Option.bind_eq_some_iff.mp all
          cases all
          exact .last ((reads text value).mp first)
  · intro fields
    induction fields with
    | @last field value denotes =>
        rw [splitChars_of_notMem (apart field value denotes), List.mapM_cons, (reads field value).mpr denotes]
        rfl
    | @more field rest value values denotes others ih =>
        rw [splitChars_append (apart field value denotes), List.mapM_cons,
          (reads field value).mpr denotes, ih]
        rfl

theorem Fields.ne_nil {text : List Char} {values : List Value} (fields : Fields separator Field text values)
    (full : ∀ field value, Field field value → field ≠ []) : text ≠ [] := by
  cases fields with
  | last denotes => exact full _ _ denotes
  | more denotes others => simp

/-- Every character of such a text is one of a field or a separator. -/
theorem Fields.forall_mem (holds : Char → Prop) {text : List Char} {values : List Value}
    (fields : Fields separator Field text values) (between : holds separator)
    (inside : ∀ field value, Field field value → ∀ c ∈ field, holds c) : ∀ c ∈ text, holds c := by
  induction fields with
  | last denotes => exact inside _ _ denotes
  | more denotes others ih =>
      intro c among
      obtain among | among := List.mem_append.mp among
      · exact inside _ _ denotes c among
      · obtain rfl | among := List.mem_cons.mp among
        · exact between
        · exact ih c among

/-- Fields that are all of a narrower kind, when the text says so. -/
theorem Fields.narrow (told : Char → Prop) {text : List Char} {values : List Value}
    (fields : Fields separator Field text values) (said : ∀ c ∈ text, told c)
    (narrows : ∀ field value, Field field value → (∀ c ∈ field, told c) → Narrow field value) :
    Fields separator Narrow text values := by
  induction fields with
  | last denotes => exact .last (narrows _ _ denotes said)
  | more denotes others ih =>
      refine .more (narrows _ _ denotes fun c among => said c (List.mem_append_left _ among)) (ih ?_)
      intro c among
      exact said c (List.mem_append_right _ (List.mem_cons_of_mem _ among))

theorem Fields.mono {text : List Char} {values : List Value}
    (fields : Fields separator Field text values)
    (widens : ∀ field value, Field field value → Narrow field value) :
    Fields separator Narrow text values := by
  induction fields with
  | last denotes => exact .last (widens _ _ denotes)
  | more denotes others ih => exact .more (widens _ _ denotes) ih

end Fields

section Numerals

/-- A run of decimal digits that denotes a number below the bound. -/
structure Numeral (bound : ℕ) (digits : List Char) (number : ℕ) : Prop where
  digit : ∀ c ∈ digits, isAsciiDigit c = true
  some : digits ≠ []
  value : decimal digits = number
  below : number < bound

/-- A numeral with an optional plus sign before it. -/
def SignedNumeral (bound : ℕ) (field : List Char) (number : ℕ) : Prop :=
  Numeral bound field number ∨ ∃ digits, field = '+' :: digits ∧ Numeral bound digits number

variable {bound number : ℕ} {field digits : List Char}

theorem Numeral.notMem (numeral : Numeral bound digits number) {c : Char}
    (other : isAsciiDigit c = false) : c ∉ digits := by
  intro among
  rw [numeral.digit c among] at other
  cases other

theorem parseUnsigned_iff (field : List Char) (number : ℕ) :
    parseUnsigned bound field = some number ↔ SignedNumeral bound field number := by
  have reads (digits : List Char) : (if digits ≠ [] ∧ digits.all isAsciiDigit ∧ decimal digits < bound
      then some (decimal digits) else none) = some number ↔ Numeral bound digits number := by
    rw [Option.ite_none_right_eq_some, List.all_eq_true, Option.some.injEq]
    constructor
    · rintro ⟨⟨some, digit, below⟩, rfl⟩
      exact ⟨digit, some, rfl, below⟩
    · rintro ⟨digit, some, rfl, below⟩
      exact ⟨⟨some, digit, below⟩, rfl⟩
  have plus (rest : List Char) : parseUnsigned bound ('+' :: rest) = some number ↔
      SignedNumeral bound ('+' :: rest) number := by
    rw [parseUnsigned, reads]
    constructor
    · intro numeral
      exact .inr ⟨rest, rfl, numeral⟩
    · rintro (numeral | ⟨digits, same, numeral⟩)
      · exact absurd List.mem_cons_self (numeral.notMem (by decide))
      · cases same
        exact numeral
  have plain (unsigned : ∀ rest, field ≠ '+' :: rest) : parseUnsigned bound field = some number ↔
      SignedNumeral bound field number := by
    rw [parseUnsigned, reads]
    · constructor
      · exact .inl
      · rintro (numeral | ⟨digits, signed, -⟩)
        · exact numeral
        · exact absurd signed (unsigned digits)
    · exact unsigned
  by_cases signed : ∃ rest, field = '+' :: rest
  · obtain ⟨rest, rfl⟩ := signed
    exact plus rest
  · exact plain fun rest same => signed ⟨rest, same⟩

/-- What is written of a number denotes it. -/
theorem decimal_toDigits (number : ℕ) : decimal (Nat.toDigits 10 number) = number := by
  induction number using Nat.strongRecOn with
  | ind number ih =>
      have last (digit : ℕ) (below : digit < 10) : (Nat.digitChar digit).toNat - '0'.toNat = digit := by
        interval_cases digit <;> rfl
      by_cases small : number < 10
      · rw [Nat.toDigits_of_lt_base small, decimal, List.foldl_cons, List.foldl_nil, last number small]
        simp
      · have quotient : number / 10 < number := by omega
        have split := Nat.toDigits_append_toDigits (by decide : 1 < 10)
          (by omega : 0 < number / 10) (by omega : number % 10 < 10)
        have whole : 10 * (number / 10) + number % 10 = number := by omega
        rw [whole, Nat.toDigits_of_lt_base (by omega : number % 10 < 10)] at split
        have front := ih (number / 10) quotient
        rw [decimal] at front
        rw [← split, decimal, List.foldl_append, front, List.foldl_cons, List.foldl_nil,
          last (number % 10) (by omega)]
        omega

theorem numeral_toDigits (below : number < bound) :
    Numeral bound (Nat.toDigits 10 number) number := by
  refine ⟨fun c among => ?_, Nat.toDigits_ne_nil, decimal_toDigits number, below⟩
  have digit := Nat.isDigit_of_mem_toDigits (by decide) (by decide) among
  simpa [isAsciiDigit, Char.isDigit, Char.le_def] using digit

end Numerals
end Sanshain.Text
