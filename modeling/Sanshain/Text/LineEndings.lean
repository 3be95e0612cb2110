import Mathlib.Tactic
import Sanshain.Text.Scan

namespace Sanshain.Text

/-- The lines of a text: a carriage return, a line feed, or the one before the other ends a line. -/
def textLines : List Char → List (List Char)
  | [] => [[]]
  | '\r' :: '\n' :: rest => [] :: textLines rest
  | c :: rest =>
      if c = '\r' ∨ c = '\n' then [] :: textLines rest
      else (textLines rest).modifyHead (c :: ·)

/-- The text with a line feed for every line ending. -/
def feeds : List Char → List Char
  | [] => []
  | '\r' :: '\n' :: rest => '\n' :: feeds rest
  | c :: rest => (if c = '\r' then '\n' else c) :: feeds rest

/-- Lines with a line feed between each two. -/
def joinLines : List (List Char) → List Char
  | [] => []
  | [line] => line
  | line :: rest => line ++ '\n' :: joinLines rest

/-- Texts that differ in their line endings only. -/
def SameLines (text other : List Char) : Prop := textLines text = textLines other

instance (text other : List Char) : Decidable (SameLines text other) :=
  inferInstanceAs (Decidable (textLines text = textLines other))

variable {text other : List Char}

theorem textLines_ne_nil (text : List Char) : textLines text ≠ [] := by
  fun_induction textLines text with
  | case1 => simp
  | case2 rest ih => simp
  | case3 c rest _ ending ih => simp
  | case4 c rest _ inside ih => simpa using ih

theorem joinLines_cons (line : List Char) {lines : List (List Char)} (some : lines ≠ []) :
    joinLines (line :: lines) = line ++ '\n' :: joinLines lines := by
  cases lines with
  | nil => exact absurd rfl some
  | cons first rest => rfl

theorem joinLines_modifyHead (c : Char) {lines : List (List Char)} (some : lines ≠ []) :
    joinLines (lines.modifyHead (c :: ·)) = c :: joinLines lines := by
  cases lines with
  | nil => exact absurd rfl some
  | cons line rest => cases rest <;> rfl

/-- The lines of a text, joined again. -/
theorem joinLines_textLines (text : List Char) : joinLines (textLines text) = feeds text := by
  fun_induction textLines text with
  | case1 => rfl
  | case2 rest ih => rw [joinLines_cons _ (textLines_ne_nil rest), ih, feeds, List.nil_append]
  | case3 c rest other ending ih =>
      rw [joinLines_cons _ (textLines_ne_nil rest), ih, feeds, List.nil_append]
      · rcases ending with rfl | rfl <;> rfl
      · exact other
  | case4 c rest other inside ih =>
      rw [joinLines_modifyHead _ (textLines_ne_nil rest), ih, feeds, if_neg fun same => inside (.inl same)]
      exact other

theorem textLines_feed (rest : List Char) : textLines ('\n' :: rest) = [] :: textLines rest := by
  rw [textLines]
  · rfl
  · simp

theorem textLines_plain {c : Char} (inside : ¬(c = '\r' ∨ c = '\n')) (rest : List Char) :
    textLines (c :: rest) = (textLines rest).modifyHead (c :: ·) := by
  rw [textLines, if_neg inside]
  rintro later rfl
  exact absurd (.inl rfl) inside

theorem return_notMem_feeds (text : List Char) : '\r' ∉ feeds text := by
  fun_induction feeds text with
  | case1 => simp
  | case2 rest ih => simpa using ih
  | case3 c rest _ ih =>
      rw [List.mem_cons, not_or]
      refine ⟨?_, ih⟩
      split
      · decide
      · rename_i other
        exact Ne.symm other

theorem feeds_eq_self (unreturned : '\r' ∉ text) : feeds text = text := by
  fun_induction feeds text with
  | case1 => rfl
  | case2 rest ih => simp at unreturned
  | case3 c rest _ ih =>
      rw [List.mem_cons, not_or] at unreturned
      rw [ih unreturned.2, if_neg (Ne.symm unreturned.1)]

/-- The endings of a text make no difference to its lines. -/
theorem sameLines_feeds (text : List Char) : SameLines (feeds text) text := by
  unfold SameLines
  fun_induction textLines text with
  | case1 => rfl
  | case2 rest ih => rw [feeds, textLines_feed, ih]
  | case3 c rest other ending ih =>
      rw [feeds]
      · rcases ending with rfl | rfl <;> exact (textLines_feed _).trans (congrArg _ ih)
      · exact other
  | case4 c rest other inside ih =>
      rw [feeds, if_neg fun same => inside (.inl same), textLines_plain inside, ih]
      exact other

/-- Texts with line feeds only are the same where their lines are. -/
theorem feeds_eq_iff : feeds text = feeds other ↔ SameLines text other := by
  constructor
  · intro same
    exact (sameLines_feeds text).symm.trans ((congrArg textLines same).trans (sameLines_feeds other))
  · intro same
    rw [← joinLines_textLines, ← joinLines_textLines]
    exact congrArg joinLines same

theorem feeds_cons {c : Char} (inside : ¬(c = '\r' ∨ c = '\n')) (text : List Char) :
    feeds (c :: text) = c :: feeds text := by
  rw [feeds, if_neg fun same => inside (.inl same)]
  rintro later rfl
  exact absurd (.inl rfl) inside

/-- A character that ends no line starts a text when it starts its form. -/
theorem head?_feeds {c : Char} (inside : ¬(c = '\r' ∨ c = '\n')) :
    (feeds text).head? = some c ↔ text.head? = some c := by
  fun_induction feeds text with
  | case1 => rfl
  | case2 rest =>
      have feed : '\n' ≠ c := fun same => inside (.inr same.symm)
      have back : '\r' ≠ c := fun same => inside (.inl same.symm)
      simp [feed, back]
  | case3 first rest _ =>
      rw [List.head?_cons, List.head?_cons]
      split
      · rename_i same
        have feed : '\n' ≠ c := fun same => inside (.inr same.symm)
        have back : first ≠ c := fun same' => inside (.inl (same'.symm.trans same))
        simp [feed, back]
      · rfl

section Replacing

theorem replaceChars_return {fuel : Nat} (enough : text.length ≤ fuel) :
    replaceChars ['\r'] ['\n'] fuel text = text.map fun c => if c = '\r' then '\n' else c := by
  induction text generalizing fuel with
  | nil => cases fuel <;> rfl
  | cons c rest ih =>
      obtain ⟨fuel, rfl⟩ : ∃ less, fuel = less + 1 := ⟨fuel - 1, by simp at enough; omega⟩
      have less : rest.length ≤ fuel := by simpa using enough
      by_cases back : '\r' = c
      · subst back
        simp [replaceChars, stripPrefixChars, ih less]
      · simp [replaceChars, stripPrefixChars, back, Ne.symm back, ih less]

/-- Both replacements together leave line feeds only. -/
theorem replaceChars_endings {fuel : Nat} (enough : text.length ≤ fuel) :
    (replaceChars ['\r', '\n'] ['\n'] fuel text).map (fun c => if c = '\r' then '\n' else c) =
      feeds text := by
  induction fuel generalizing text with
  | zero =>
      have none : text = [] := by simpa using enough
      rw [none]
      rfl
  | succ fuel ih =>
      fun_cases feeds text with
      | case1 => rfl
      | case2 rest =>
          have less : rest.length ≤ fuel := by simp at enough; omega
          simp [replaceChars, stripPrefixChars, ih less]
      | case3 c rest other =>
          have less : rest.length ≤ fuel := by simpa using enough
          have unmatched : stripPrefixChars ['\r', '\n'] (c :: rest) = none := by
            rw [stripPrefixChars]
            split
            · rename_i back
              subst back
              cases rest with
              | nil => rfl
              | cons next later =>
                  rw [stripPrefixChars, if_neg]
                  rintro rfl
                  exact other later rfl rfl
            · rfl
          rw [replaceChars, unmatched, List.map_cons, ih less]

theorem replace_endings (text : String) :
    replace "\r" "\n" (replace "\r\n" "\n" text) = String.ofList (feeds text.toList) := by
  have paired : (replace "\r\n" "\n" text).toList =
      replaceChars ['\r', '\n'] ['\n'] text.toList.length text.toList := String.toList_ofList
  rw [replace, paired]
  exact congrArg String.ofList ((replaceChars_return le_rfl).trans (replaceChars_endings le_rfl))

theorem contains_char (c : Char) (text : String) :
    contains (String.singleton c) text = true ↔ c ∈ text.toList := by
  have among (text : List Char) : containsChars [c] text = true ↔ c ∈ text := by
    induction text with
    | nil => simp [containsChars]
    | cons first rest ih =>
        have starts : [c].isPrefixOf (first :: rest) = true ↔ c = first := by simp
        rw [containsChars, Bool.or_eq_true, ih, starts, List.mem_cons]
  rw [contains, String.toList_singleton]
  exact among _

end Replacing
end Sanshain.Text
