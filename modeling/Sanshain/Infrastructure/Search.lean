import Sanshain.Text.Like
import Sanshain.Text.Scan

namespace Sanshain.Infrastructure

open Sanshain.Text

section Search

/-- What is pushed for a character of the query: `*` matches anything, and the characters with a meaning of
their own in a LIKE pattern are escaped. -/
def likeChar (c : Char) : List Char :=
  match c with
  | '*' => ['%']
  | '%' => ['\\', c]
  | '_' => ['\\', c]
  | '\\' => ['\\', c]
  | other => [other]

/-- The case-insensitive LIKE pattern of an endpoint search, which matches as a substring. -/
def likePattern (toLowercase : String → String) (query : String) : String :=
  let pattern := (toLowercase (trim query)).toList.foldl (fun pattern c => pattern ++ likeChar c) ['%']
  String.ofList (pattern ++ ['%'])

/-- The texts of an endpoint that the search looks at, as the database lowers them. -/
def textsFit (lower toLowercase : String → String) (query path method : String) : Prop :=
  Like '\\' (likePattern toLowercase query) (lower path) ∨
    Like '\\' (likePattern toLowercase query) (lower method)

theorem toList_likePattern (toLowercase : String → String) (query : String) :
    (likePattern toLowercase query).toList =
      '%' :: ((toLowercase (trim query)).toList.flatMap likeChar ++ ['%']) := by
  have pushed : ∀ (typed pattern : List Char), typed.foldl (fun pattern c => pattern ++ likeChar c) pattern =
      pattern ++ typed.flatMap likeChar := by
    intro typed
    induction typed with
    | nil => simp
    | cons c rest ih => simp [ih]
  rw [likePattern, String.toList_ofList, pushed]
  rfl

end Search
end Sanshain.Infrastructure
