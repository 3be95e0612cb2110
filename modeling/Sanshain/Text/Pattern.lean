import Mathlib.Tactic

namespace Sanshain.Text

/-- A regular expression whose repetitions are greedy runs of one character class. -/
inductive Pattern where
  | nil
  | one (accepts : Char → Bool)
  | many (accepts : Char → Bool)
  | seq (first second : Pattern)
  | alt (preferred other : Pattern)
  | group (index : Nat) (inner : Pattern)
  | lineStart
  | wordBoundary (isWord : Char → Bool)

/-- A cursor stands between the characters read, last one first, and the characters to come. -/
structure Cursor where
  before : List Char
  rest : List Char
  groups : List (Nat × Nat × Nat) := []

namespace Cursor

def offset (cursor : Cursor) : Nat := cursor.before.length

/-- The cursor at an offset of a text. -/
def place (text : List Char) (offset : Nat) : Cursor :=
  ⟨(text.take offset).reverse, text.drop offset, []⟩

end Cursor

namespace Pattern

/-- The cursors after a greedy run of the class, the longest run first. -/
def runs (accepts : Char → Bool) (groups : List (Nat × Nat × Nat)) :
    List Char → List Char → List Cursor
  | before, [] => [⟨before, [], groups⟩]
  | before, c :: rest =>
      if accepts c then runs accepts groups (c :: before) rest ++ [⟨before, c :: rest, groups⟩]
      else [⟨before, c :: rest, groups⟩]

/-- The cursors after a match, in the order a backtracking matcher prefers them. -/
def ends : Pattern → Cursor → List Cursor
  | .nil, cursor => [cursor]
  | .one accepts, cursor =>
      match cursor.rest with
      | [] => []
      | c :: rest => if accepts c then [⟨c :: cursor.before, rest, cursor.groups⟩] else []
  | .many accepts, cursor => runs accepts cursor.groups cursor.before cursor.rest
  | .seq first second, cursor => (first.ends cursor).flatMap second.ends
  | .alt preferred other, cursor => preferred.ends cursor ++ other.ends cursor
  | .group index inner, cursor =>
      (inner.ends cursor).map fun after =>
        { after with groups := (index, cursor.offset, after.offset) :: after.groups }
  | .lineStart, cursor =>
      match cursor.before with
      | [] => [cursor]
      | c :: _ => if c = '\n' then [cursor] else []
  | .wordBoundary isWord, cursor =>
      if (cursor.before.head?.any isWord) != (cursor.rest.head?.any isWord) then [cursor] else []

/-- A literal text. -/
def text (literal : String) : Pattern :=
  literal.toList.foldr (fun c rest => .seq (.one (· == c)) rest) .nil

/-- A non-empty greedy run. -/
def some (accepts : Char → Bool) : Pattern := .seq (.one accepts) (.many accepts)

def optional (inner : Pattern) : Pattern := .alt inner .nil

def sequence (parts : List Pattern) : Pattern := parts.foldr .seq .nil

end Pattern

/-- A match within a text, by character offsets. -/
structure Match where
  start : Nat
  stop : Nat
  groups : List (Nat × Nat × Nat)

/-- The part of the text between two offsets. -/
def slice (text : List Char) (start stop : Nat) : List Char := (text.drop start).take (stop - start)

namespace Match

def whole (text : List Char) (found : Match) : List Char := slice text found.start found.stop

/-- The text of a capture group, when it took part in the match. -/
def group? (text : List Char) (found : Match) (index : Nat) : Option (List Char) :=
  (found.groups.find? (·.1 == index)).map fun span => slice text span.2.1 span.2.2

end Match

namespace Pattern

/-- The preferred match that begins at the offset. -/
def matchAt (pattern : Pattern) (text : List Char) (offset : Nat) : Option Match :=
  (pattern.ends (.place text offset)).head?.map fun after => ⟨offset, after.offset, after.groups⟩

/-- The leftmost match that begins at or after the offset. -/
def search (pattern : Pattern) (text : List Char) (offset : Nat) : Option Match :=
  (List.range' offset (text.length + 1 - offset)).findSome? (pattern.matchAt text)

def isMatch (pattern : Pattern) (text : List Char) : Bool := (pattern.search text 0).isSome

/-- The matches from an offset on, each beginning where the one before it stopped. -/
def searchAll (pattern : Pattern) (text : List Char) : Nat → Nat → List Match
  | 0, _ => []
  | fuel + 1, offset =>
      match pattern.search text offset with
      | none => []
      | .some found => found :: searchAll pattern text fuel (max found.stop (found.start + 1))

/-- Every match of the text, from the left and without overlap. -/
def capturesIter (pattern : Pattern) (text : List Char) : List Match :=
  pattern.searchAll text (text.length + 1) 0

end Pattern
end Sanshain.Text
