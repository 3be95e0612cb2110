import Sanshain.Infrastructure.Search

namespace Sanshain.Guarantees

open Sanshain.Infrastructure Sanshain.Text

section SearchPatterns

/-- What a character of a search stands for: `*` for anything, any other for itself. -/
def typedPiece (c : Char) : Piece Char := if c = '*' then .any else .literal c

/-- Some part of a text is what was typed. -/
def FoundIn (typed text : String) : Prop :=
  ∃ part, part <:+: text.toList ∧ Matches (typed.toList.map typedPiece) part

/-- What is pushed for a character reads as what the character stands for. -/
theorem likePieces_likeChar (c : Char) (rest : List Char) :
    likePieces '\\' (likeChar c ++ rest) = (likePieces '\\' rest).map (typedPiece c :: ·) := by
  unfold likeChar
  split
  · exact likePieces_plain (by decide)
  · exact likePieces_escaped '%'
  · exact likePieces_escaped '_'
  · exact likePieces_escaped '\\'
  · rename_i star any single escape
    have same : likePiece c = typedPiece c := by
      rw [likePiece, typedPiece, if_neg any, if_neg single, if_neg star]
    rw [List.singleton_append, likePieces_plain escape, same]

theorem likePieces_typed (typed rest : List Char) :
    likePieces '\\' (typed.flatMap likeChar ++ rest) =
      (likePieces '\\' rest).map (typed.map typedPiece ++ ·) := by
  induction typed with
  | nil => simp
  | cons c typed ih =>
      rw [List.flatMap_cons, List.append_assoc, likePieces_likeChar, ih, Option.map_map]
      rfl

/-- The pattern of a search reads as what was typed, between two runs of any characters. -/
theorem likePieces_likePattern (toLowercase : String → String) (query : String) :
    likePieces '\\' (likePattern toLowercase query).toList =
      some (.any :: ((toLowercase (trim query)).toList.map typedPiece ++ [.any])) := by
  rw [toList_likePattern, likePieces_plain (by decide), likePieces_typed]
  rfl

theorem foundIn_iff (typed text : String) :
    FoundIn typed text ↔ Matches (.any :: (typed.toList.map typedPiece ++ [.any])) text.toList :=
  matches_anywhere.symm

/-- A search finds the endpoints whose path or method has a part that is what was typed. -/
theorem textsFit_iff (lower toLowercase : String → String) (query path method : String) :
    textsFit lower toLowercase query path method ↔
      FoundIn (toLowercase (trim query)) (lower path) ∨ FoundIn (toLowercase (trim query)) (lower method) := by
  simp only [textsFit, like_iff (likePieces_likePattern toLowercase query), foundIn_iff]

/-- A text matches the pattern of a search exactly when some part of it is what was typed. -/
theorem search_matches_typed (toLowercase : String → String) (query text : String) :
    Like '\\' (likePattern toLowercase query) text ↔ FoundIn (toLowercase (trim query)) text := by
  rw [like_iff (likePieces_likePattern toLowercase query), foundIn_iff]

example : Like '\\' (likePattern id " a*_b ") "xab_by" ∧ ¬ Like '\\' (likePattern id "a_b") "xaxby" := by decide

end SearchPatterns
end Sanshain.Guarantees
