import Mathlib.Data.List.DropRight
import Sanshain.Text.Scan

namespace Sanshain.Text

section Ends

variable {α : Type} {p q : α → Bool}

theorem dropWhile_append_cons {a : α} (stays : p a = false) (front back : List α) :
    (front ++ a :: back).dropWhile p = front.dropWhile p ++ a :: back := by
  induction front with
  | nil => simp [stays]
  | cons c rest ih =>
      rw [List.cons_append, List.dropWhile_cons, List.dropWhile_cons]
      split
      · exact ih
      · rfl

theorem rdropWhile_append_cons {a : α} (stays : p a = false) (front back : List α) :
    (front ++ a :: back).rdropWhile p = front ++ a :: back.rdropWhile p := by
  have turned := dropWhile_append_cons stays back.reverse front.reverse
  rw [List.rdropWhile, List.rdropWhile]
  simp [turned]

theorem rdropWhile_last (text : List α) : ∀ a ∈ (text.rdropWhile p).getLast?, p a = false := by
  intro a last
  have some : text.rdropWhile p ≠ [] := by
    intro nothing
    rw [nothing] at last
    cases last
  have stays := List.rdropWhile_last_not p _ some
  rw [List.getLast?_eq_some_getLast some] at last
  cases last
  simpa using stays

theorem rdropWhile_append_of_all {back : List α} (falls : ∀ a ∈ back, p a = true) (front : List α) :
    (front ++ back).rdropWhile p = front.rdropWhile p := by
  induction back using List.reverseRecOn with
  | nil => rw [List.append_nil]
  | append_singleton rest a ih =>
      rw [← List.append_assoc, List.rdropWhile_concat_pos _ _ _ (falls a (by simp))]
      exact ih fun b among => falls b (List.mem_append_left _ among)

theorem rdropWhile_rdropWhile (wider : ∀ a, p a = true → q a = true) (text : List α) :
    (text.rdropWhile p).rdropWhile q = text.rdropWhile q := by
  have falls : ∀ a ∈ text.rtakeWhile p, q a = true :=
    fun a among => wider a (List.mem_rtakeWhile_imp among)
  rw [← rdropWhile_append_of_all falls, List.rdropWhile_append_rtakeWhile]

/-- What falls at both ends is not seen through an end that falls as a whole. -/
theorem rdropWhile_dropWhile_append {back : List α} (wider : ∀ a, p a = true → q a = true)
    (falls : ∀ a ∈ back, q a = true) (text : List α) :
    ((text ++ back).dropWhile p).rdropWhile q = (text.dropWhile p).rdropWhile q := by
  rw [List.dropWhile_append]
  split
  · rename_i gone
    have lost : ∀ a ∈ back.dropWhile p, q a = true :=
      fun a among => falls a ((List.dropWhile_sublist p).subset among)
    rw [List.isEmpty_iff.mp gone, List.rdropWhile_eq_nil_iff.mpr lost, List.rdropWhile_nil]
  · exact rdropWhile_append_of_all falls _

end Ends

section Trimming

variable {text : List Char}

/-- The text has no white space at its ends. -/
structure Trimmed (text : List Char) : Prop where
  start : ∀ c ∈ text.head?, isWhiteSpace c = false
  finish : ∀ c ∈ text.getLast?, isWhiteSpace c = false

theorem dropWhile_of_head (solid : ∀ c ∈ text.head?, isWhiteSpace c = false) :
    text.dropWhile isWhiteSpace = text := by
  cases text with
  | nil => rfl
  | cons c rest => rw [List.dropWhile_cons_of_neg (by simp [solid c rfl])]

theorem Trimmed.trimChars_eq (trimmed : Trimmed text) : trimChars text = text := by
  have backwards : text.reverse.dropWhile isWhiteSpace = text.reverse := by
    refine dropWhile_of_head ?_
    rw [List.head?_reverse]
    exact trimmed.finish
  rw [trimChars, dropWhile_of_head trimmed.start, backwards, List.reverse_reverse]

theorem trimChars_eq_rdropWhile (text : List Char) :
    trimChars text = (text.dropWhile isWhiteSpace).rdropWhile isWhiteSpace := rfl

theorem trimChars_sublist (text : List Char) : (trimChars text).Sublist text :=
  (List.rdropWhile_prefix _ _).sublist.trans (List.dropWhile_sublist _)

theorem trimmed_trimChars (text : List Char) : Trimmed (trimChars text) := by
  constructor
  · intro c first
    obtain ⟨rest, whole⟩ := List.rdropWhile_prefix isWhiteSpace (text.dropWhile isWhiteSpace)
    have head : c ∈ (text.dropWhile isWhiteSpace).head? := by
      rw [← whole]
      rw [trimChars_eq_rdropWhile] at first
      exact List.mem_head?_append_of_mem_head? first
    have stays := List.head?_dropWhile_not isWhiteSpace text
    rw [Option.mem_def.mp head] at stays
    simpa using stays
  · exact rdropWhile_last _

theorem trimChars_eq_iff : trimChars text = text ↔ Trimmed text :=
  ⟨fun same => same ▸ trimmed_trimChars text, Trimmed.trimChars_eq⟩

theorem trimmed_of_solid (solid : ∀ c ∈ text, isWhiteSpace c = false) : Trimmed text :=
  ⟨fun c among => solid c (List.mem_of_mem_head? among),
    fun c among => solid c (List.mem_of_getLast? among)⟩

theorem solid_of_digit {c : Char} (digit : isAsciiDigit c = true) : isWhiteSpace c = false := by
  rw [isAsciiDigit, Bool.and_eq_true, decide_eq_true_iff, decide_eq_true_iff, Char.le_def, Char.le_def,
    UInt32.le_iff_toNat_le, UInt32.le_iff_toNat_le] at digit
  obtain ⟨least, most⟩ := digit
  have low : 48 ≤ c.toNat := least
  have high : c.toNat ≤ 57 := most
  simp only [isWhiteSpace, Bool.or_eq_false_iff, Bool.and_eq_false_iff, decide_eq_false_iff_not, beq_eq_false_iff_ne]
  omega

end Trimming
end Sanshain.Text
