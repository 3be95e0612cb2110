import Sanshain.Text.Wildcard

namespace Sanshain.Text

section Anywhere

variable {α : Type} {pattern rest : List (Piece α)} {text : List α}

theorem matches_append :
    Matches (pattern ++ rest) text ↔
      ∃ run later, Matches pattern run ∧ Matches rest later ∧ run ++ later = text := by
  induction pattern generalizing text with
  | nil => simp
  | cons piece pieces ih =>
      rw [List.cons_append, matches_cons]
      constructor
      · intro ⟨run, _, first, held, whole⟩
        obtain ⟨front, last, inner, others, rfl⟩ := ih.mp held
        exact ⟨run ++ front, last, matches_cons.mpr ⟨run, front, first, inner, rfl⟩, others,
          (List.append_assoc _ _ _).trans whole⟩
      · intro ⟨_, last, held, others, whole⟩
        obtain ⟨run, later, first, inner, rfl⟩ := matches_cons.mp held
        exact ⟨run, later ++ last, first, ih.mpr ⟨later, last, inner, others, rfl⟩,
          (List.append_assoc _ _ _).symm.trans whole⟩

theorem matches_any : Matches [.any] text :=
  matches_any_cons.mpr ⟨[], List.nil_suffix, matches_nil.mpr rfl⟩

/-- Between two runs of any characters, a pattern is looked for anywhere. -/
theorem matches_anywhere :
    Matches (.any :: (pattern ++ [.any])) text ↔ ∃ part, part <:+: text ∧ Matches pattern part := by
  rw [matches_any_cons]
  constructor
  · intro ⟨later, suffix, held⟩
    obtain ⟨part, after, held, -, whole⟩ := matches_append.mp held
    have start : part <+: later := ⟨after, whole⟩
    exact ⟨part, start.isInfix.trans suffix.isInfix, held⟩
  · intro ⟨part, ⟨before, after, whole⟩, held⟩
    rw [List.append_assoc] at whole
    exact ⟨part ++ after, ⟨before, whole⟩, matches_append.mpr ⟨part, after, held, matches_any, rfl⟩⟩

/-- The runs a piece may take from the start of a text leave one of its tails. -/
def decidableMatches [DecidableEq α] : (pattern : List (Piece α)) → (text : List α) →
    Decidable (Matches pattern text)
  | [], _ => decidable_of_iff _ matches_nil.symm
  | .any :: rest, text =>
      have (later : List α) := decidableMatches rest later
      decidable_of_iff (∃ later ∈ text.tails, Matches rest later) (by simp [matches_any_cons])
  | .single :: _, [] => .isFalse (by simp [matches_nil_text])
  | .literal _ :: _, [] => .isFalse (by simp [matches_nil_text])
  | .single :: rest, a :: later =>
      have := decidableMatches rest later
      decidable_of_iff (Matches rest later) (by simp [matches_rigid_cons, Piece.Fits])
  | .literal b :: rest, a :: later =>
      have := decidableMatches rest later
      decidable_of_iff (b = a ∧ Matches rest later) (by simp [matches_rigid_cons, Piece.Fits])

instance [DecidableEq α] : Decidable (Matches pattern text) := decidableMatches pattern text

end Anywhere

section Like

/-- What a character of a LIKE pattern stands for where it is not escaped. -/
def likePiece (c : Char) : Piece Char :=
  if c = '%' then .any else if c = '_' then .single else .literal c

/-- The pieces of a LIKE pattern; there are none when it ends with the escape character. -/
def likePieces (escape : Char) : List Char → Option (List (Piece Char))
  | [] => some []
  | [c] => if c = escape then none else some [likePiece c]
  | c :: next :: rest =>
      if c = escape then (likePieces escape rest).map (.literal next :: ·)
      else (likePieces escape (next :: rest)).map (likePiece c :: ·)

def Like (escape : Char) (pattern text : String) : Prop :=
  ∃ pieces ∈ likePieces escape pattern.toList, Matches pieces text.toList

instance (escape : Char) (pattern text : String) : Decidable (Like escape pattern text) :=
  inferInstanceAs (Decidable (∃ pieces ∈ likePieces escape pattern.toList, Matches pieces text.toList))

variable {escape : Char} {pattern text : String} {rest : List Char}

theorem likePieces_plain {c : Char} (plain : c ≠ escape) :
    likePieces escape (c :: rest) = (likePieces escape rest).map (likePiece c :: ·) := by
  cases rest with
  | nil => simp [likePieces, plain]
  | cons next later => rw [likePieces, if_neg plain]

theorem likePieces_escaped (c : Char) :
    likePieces escape (escape :: c :: rest) = (likePieces escape rest).map (.literal c :: ·) := by
  rw [likePieces, if_pos rfl]

theorem like_iff {pieces : List (Piece Char)} (reads : likePieces escape pattern.toList = some pieces) :
    Like escape pattern text ↔ Matches pieces text.toList := by
  rw [Like, reads]
  simp

end Like
end Sanshain.Text
