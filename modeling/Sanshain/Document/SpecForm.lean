import Sanshain.Document.SpecText
import Sanshain.Text.LineEndings

namespace Sanshain.Document

open Sanshain.Text

/-- The byte order mark. -/
def mark : Char := '\ufeff'

/-- A text that starts with a byte order mark. -/
def MarkedText (text : String) : Prop := text.toList.head? = some mark

/-- A text that starts with two of them. -/
def DoublyMarked (text : String) : Prop := ∃ rest, text.toList = mark :: mark :: rest

/-- Texts that differ in the style of their line endings and in one byte order mark at most. -/
def Respelled (text other : String) : Prop :=
  SameLines text.toList other.toList ∨ SameLines text.toList (mark :: other.toList) ∨
    SameLines (mark :: text.toList) other.toList

/-- The text without a leading byte order mark. -/
def unmarked : List Char → List Char
  | [] => []
  | c :: rest => if c = mark then rest else c :: rest

variable {text other : String}

theorem mark_inside : ¬(mark = '\r' ∨ mark = '\n') := by decide

theorem stripPrefix_mark (text : String) :
    ((stripPrefix "\ufeff" text).getD text).toList = unmarked text.toList := by
  have start : "\ufeff".toList = [mark] := rfl
  rw [stripPrefix, start]
  cases chars : text.toList with
  | nil => simp [stripPrefixChars, unmarked, chars]
  | cons c rest =>
      by_cases marked : mark = c
      · subst marked
        simp [stripPrefixChars, unmarked]
      · simp [stripPrefixChars, unmarked, marked, Ne.symm marked, chars]

/-- The normal form, in one step. -/
theorem toList_normalizeSpecText (text : String) :
    (normalizeSpecText text).toList = feeds (unmarked text.toList) := by
  unfold normalizeSpecText
  rw [← stripPrefix_mark]
  generalize (stripPrefix "\ufeff" text).getD text = bare
  dsimp only
  split
  · rw [replace_endings, String.toList_ofList]
  · rename_i unreturned
    exact (feeds_eq_self (mt (contains_char '\r' bare).mpr unreturned)).symm

theorem unmarked_of_marked {chars rest : List Char} (starts : chars = mark :: rest) : unmarked chars = rest := by
  rw [starts, unmarked, if_pos rfl]

theorem unmarked_of_unmarked {chars : List Char} (bare : chars.head? ≠ some mark) : unmarked chars = chars := by
  cases chars with
  | nil => rfl
  | cons c rest =>
      rw [unmarked, if_neg]
      rintro rfl
      exact bare rfl

theorem head?_unmarked (text : String) :
    (unmarked text.toList).head? = some mark ↔ DoublyMarked text := by
  constructor
  · intro starts
    by_cases marked : text.toList.head? = some mark
    · obtain ⟨rest, chars⟩ := List.head?_eq_some_iff.mp marked
      rw [unmarked_of_marked chars] at starts
      obtain ⟨later, rfl⟩ := List.head?_eq_some_iff.mp starts
      exact ⟨later, chars⟩
    · rw [unmarked_of_unmarked marked] at starts
      exact absurd starts marked
  · rintro ⟨rest, chars⟩
    rw [unmarked_of_marked chars]
    rfl

/-- A normal form starts with a mark where the text starts with two. -/
theorem marked_normalizeSpecText : MarkedText (normalizeSpecText text) ↔ DoublyMarked text := by
  rw [MarkedText, toList_normalizeSpecText, head?_feeds mark_inside, head?_unmarked]

theorem return_notMem_normalizeSpecText (text : String) : '\r' ∉ (normalizeSpecText text).toList := by
  rw [toList_normalizeSpecText]
  exact return_notMem_feeds _

theorem normalizeSpecText_eq_self (unreturned : '\r' ∉ text.toList) (bare : ¬MarkedText text) :
    normalizeSpecText text = text := by
  rw [← String.toList_inj, toList_normalizeSpecText, unmarked_of_unmarked bare, feeds_eq_self unreturned]

/-- The form of a form is the form, but for texts that start with two marks. -/
theorem normalizeSpecText_twice_iff :
    normalizeSpecText (normalizeSpecText text) = normalizeSpecText text ↔ ¬DoublyMarked text := by
  constructor
  · intro same doubly
    obtain ⟨rest, chars⟩ := List.head?_eq_some_iff.mp (marked_normalizeSpecText.mpr doubly)
    have shorter := congrArg (fun text : String => text.toList.length) same
    simp only [toList_normalizeSpecText (normalizeSpecText text), unmarked_of_marked chars] at shorter
    have unreturned : '\r' ∉ rest := by
      have none := return_notMem_normalizeSpecText text
      rw [chars, List.mem_cons, not_or] at none
      exact none.2
    rw [feeds_eq_self unreturned, chars, List.length_cons] at shorter
    omega
  · intro single
    exact normalizeSpecText_eq_self (return_notMem_normalizeSpecText text)
      (mt marked_normalizeSpecText.mp single)

theorem normalizeSpecText_eq_iff : normalizeSpecText text = normalizeSpecText other ↔
    SameLines (unmarked text.toList) (unmarked other.toList) := by
  rw [← String.toList_inj, toList_normalizeSpecText, toList_normalizeSpecText, feeds_eq_iff]

theorem sameLines_head? {one two : List Char} (same : SameLines one two) :
    one.head? = some mark ↔ two.head? = some mark := by
  rw [← head?_feeds mark_inside, feeds_eq_iff.mpr same, head?_feeds mark_inside]

theorem sameLines_cons {one two : List Char} : SameLines (mark :: one) (mark :: two) ↔ SameLines one two := by
  rw [← feeds_eq_iff, ← feeds_eq_iff, feeds_cons mark_inside, feeds_cons mark_inside, List.cons.injEq]
  exact and_iff_right rfl

/-- The same lines stay the same without a mark. -/
theorem sameLines_unmarked {one two : List Char} (same : SameLines one two) :
    SameLines (unmarked one) (unmarked two) := by
  by_cases marked : one.head? = some mark
  · obtain ⟨rest, rfl⟩ := List.head?_eq_some_iff.mp marked
    obtain ⟨rest', rfl⟩ := List.head?_eq_some_iff.mp ((sameLines_head? same).mp marked)
    rw [unmarked_of_marked rfl, unmarked_of_marked rfl]
    exact sameLines_cons.mp same
  · rw [unmarked_of_unmarked marked, unmarked_of_unmarked (mt (sameLines_head? same).mpr marked)]
    exact same

/-- A text has the form of the same lines without a mark in front exactly when no other mark follows. -/
theorem normalizeSpecText_mark_iff (same : SameLines text.toList (mark :: other.toList)) :
    normalizeSpecText text = normalizeSpecText other ↔ ¬DoublyMarked text := by
  obtain ⟨rest, chars⟩ := List.head?_eq_some_iff.mp ((sameLines_head? same).mpr rfl)
  rw [chars, sameLines_cons] at same
  rw [normalizeSpecText_eq_iff, ← head?_unmarked, unmarked_of_marked chars]
  constructor
  · intro forms marked
    obtain ⟨later, rfl⟩ := List.head?_eq_some_iff.mp marked
    obtain ⟨later', chars'⟩ := List.head?_eq_some_iff.mp ((sameLines_head? same).mp rfl)
    rw [unmarked_of_marked chars'] at forms
    rw [chars', sameLines_cons] at same
    have longer := congrArg List.length ((feeds_eq_iff.mpr forms).trans (feeds_eq_iff.mpr same).symm)
    rw [feeds_cons mark_inside, List.length_cons] at longer
    omega
  · intro bare
    rwa [unmarked_of_unmarked (mt (sameLines_head? same).mpr bare)]

theorem DoublyMarked.of_mark (same : SameLines text.toList (mark :: other.toList))
    (doubly : DoublyMarked other) : DoublyMarked text := by
  obtain ⟨rest, chars⟩ := doubly
  obtain ⟨later, chars'⟩ := List.head?_eq_some_iff.mp ((sameLines_head? same).mpr rfl)
  rw [chars', sameLines_cons] at same
  obtain ⟨last, rfl⟩ := List.head?_eq_some_iff.mp ((sameLines_head? same).mpr (by rw [chars]; rfl))
  exact ⟨last, chars'⟩

/-- Respelled texts have one form, unless one of them starts with two marks and the other with
one less. -/
theorem normalizeSpecText_respelled_iff (respelled : Respelled text other) :
    normalizeSpecText text = normalizeSpecText other ↔
      SameLines text.toList other.toList ∨ ¬DoublyMarked text ∧ ¬DoublyMarked other := by
  have alike : SameLines text.toList other.toList → normalizeSpecText text = normalizeSpecText other :=
    fun same => normalizeSpecText_eq_iff.mpr (sameLines_unmarked same)
  rcases respelled with same | marked | marked
  · exact iff_of_true (alike same) (.inl same)
  · constructor
    · intro form
      have single := (normalizeSpecText_mark_iff marked).mp form
      exact .inr ⟨single, mt (DoublyMarked.of_mark marked) single⟩
    · rintro (same | ⟨single, -⟩)
      · exact alike same
      · exact (normalizeSpecText_mark_iff marked).mpr single
  · have swapped : SameLines other.toList (mark :: text.toList) := Eq.symm marked
    constructor
    · intro form
      have single := (normalizeSpecText_mark_iff swapped).mp form.symm
      exact .inr ⟨mt (DoublyMarked.of_mark swapped) single, single⟩
    · rintro (same | ⟨-, single⟩)
      · exact alike same
      · exact ((normalizeSpecText_mark_iff swapped).mpr single).symm

/-- A normal form starts with no mark. -/
theorem bare_of_normal (normal : normalizeSpecText text = text) : ¬MarkedText text := by
  intro marked
  have doubly : DoublyMarked text := marked_normalizeSpecText.mp (normal.symm ▸ marked)
  exact normalizeSpecText_twice_iff.mp (congrArg normalizeSpecText normal) doubly

/-- What a normal form is respelled from has that form. -/
theorem normalizeSpecText_of_respelled (normal : normalizeSpecText other = other)
    (respelled : Respelled text other) : normalizeSpecText text = other := by
  have bare := bare_of_normal normal
  rcases respelled with same | marked | marked
  · exact (normalizeSpecText_eq_iff.mpr (sameLines_unmarked same)).trans normal
  · refine ((normalizeSpecText_mark_iff marked).mpr ?_).trans normal
    rintro ⟨rest, chars⟩
    rw [chars, sameLines_cons] at marked
    exact bare ((sameLines_head? marked).mp rfl)
  · exact absurd ((sameLines_head? marked).mp rfl) bare

end Sanshain.Document
