import Sanshain.Document.OpenApi
import Sanshain.Text.Fields
import Sanshain.Text.Trim

namespace Sanshain.Document.OpenApiDocument

open Sanshain.Text

section Slashes

variable {before : Bool} {text : List Char}

/-- Whether a slash stands before what follows the text. -/
def slashAfter (before : Bool) (text : List Char) : Bool := text.getLast?.elim before fun c => c = '/'

theorem slashAfter_cons (before : Bool) (c : Char) (rest : List Char) :
    slashAfter before (c :: rest) = slashAfter (c = '/') rest := by
  cases rest with
  | nil => rfl
  | cons d more => rw [slashAfter, slashAfter, List.getLast?_cons_cons, List.getLast?_cons, Option.elim, Option.elim]

theorem collapseSlashes_append (before : Bool) (front back : List Char) :
    collapseSlashes before (front ++ back) =
      collapseSlashes before front ++ collapseSlashes (slashAfter before front) back := by
  induction front generalizing before with
  | nil => rfl
  | cons c rest ih =>
      rw [slashAfter_cons, List.cons_append, collapseSlashes, collapseSlashes]
      split
      · rename_i slash
        split <;> simp [ih, slash]
      · rename_i other
        simp [ih, other]

theorem collapseSlashes_sublist (before : Bool) (text : List Char) :
    (collapseSlashes before text).Sublist text := by
  induction text generalizing before with
  | nil => exact .slnil
  | cons c rest ih =>
      rw [collapseSlashes]
      split
      · rename_i slash
        split
        · exact .cons _ (ih true)
        · exact slash ▸ .cons_cons _ (ih true)
      · exact .cons_cons _ (ih false)

theorem collapseSlashes_head (text : List Char) : (collapseSlashes false text).head? = text.head? := by
  cases text with
  | nil => rfl
  | cons c rest =>
      rw [collapseSlashes]
      split
      · rename_i slash
        rw [slash]
        rfl
      · rfl

theorem collapseSlashes_last (text : List Char) :
    (collapseSlashes false text).getLast? = text.getLast? := by
  induction text using List.reverseRecOn with
  | nil => rfl
  | append_singleton rest c ih =>
      rw [collapseSlashes_append, List.getLast?_concat]
      by_cases slash : c = '/'
      · cases after : slashAfter false rest with
        | false => simp [collapseSlashes, slash]
        | true =>
            rw [collapseSlashes, if_pos slash, if_pos rfl, collapseSlashes, List.append_nil, ih, slash]
            cases last : rest.getLast? with
            | none => simp [slashAfter, last] at after
            | some d => simpa [slashAfter, last] using after
      · simp [collapseSlashes, slash]

theorem collapseSlashes_collapseSlashes (before : Bool) (text : List Char) :
    collapseSlashes before (collapseSlashes before text) = collapseSlashes before text := by
  induction text generalizing before with
  | nil => rfl
  | cons c rest ih =>
      rw [collapseSlashes]
      split
      · rename_i slash
        split
        · rename_i doubled
          rw [doubled, ih true]
        · rename_i single
          rw [collapseSlashes, if_pos rfl, if_neg single, ih true]
      · rename_i other
        rw [collapseSlashes, if_neg other, ih false]

/-- A collapsed text has a collapsed tail. -/
theorem collapsed_tail {c : Char} {rest : List Char}
    (collapsed : collapseSlashes before (c :: rest) = c :: rest) :
    (c = '/' → before = false) ∧ collapseSlashes (c = '/') rest = rest := by
  rw [collapseSlashes] at collapsed
  split at collapsed
  · rename_i slash
    split at collapsed
    · have short := (collapseSlashes_sublist true rest).length_le
      rw [collapsed] at short
      simp at short
    · rename_i single
      rw [slash] at collapsed ⊢
      exact ⟨fun _ => Bool.eq_false_of_not_eq_true single, List.cons_injective collapsed⟩
  · rename_i other
    rw [decide_eq_false other]
    exact ⟨fun slash => absurd slash other, List.cons_injective collapsed⟩

theorem collapsed_prefix {front back : List Char}
    (collapsed : collapseSlashes before (front ++ back) = front ++ back) :
    collapseSlashes before front = front := by
  rw [collapseSlashes_append] at collapsed
  have first := (collapseSlashes_sublist before front).length_le
  have second := (collapseSlashes_sublist (slashAfter before front) back).length_le
  have whole := congrArg List.length collapsed
  rw [List.length_append, List.length_append] at whole
  exact (collapseSlashes_sublist before front).eq_of_length (by omega)

end Slashes

section Placeholders

/-- A character that stands for itself, or the place of a placeholder. -/
inductive Piece
  | literal (c : Char)
  | placeholder

/-- The pieces of a path. A brace that a later one closes opens a placeholder, up to the first
that does; inside one nothing is read. -/
def pieces : Bool → List Char → List Piece
  | _, [] => []
  | true, c :: rest => if c = '}' then pieces false rest else pieces true rest
  | false, c :: rest =>
      if c = '{' ∧ '}' ∈ rest then .placeholder :: pieces true rest
      else .literal c :: pieces false rest

def Piece.written : Piece → List Char
  | .literal c => [c]
  | .placeholder => ['{', '}']

def written (path : List Piece) : List Char := path.flatMap Piece.written

variable {inside : Bool} {text front back : List Char}

theorem written_literal (c : Char) (rest : List Piece) :
    written (.literal c :: rest) = c :: written rest := rfl

theorem written_placeholder (rest : List Piece) :
    written (.placeholder :: rest) = '{' :: '}' :: written rest := rfl

theorem written_append (first second : List Piece) :
    written (first ++ second) = written first ++ written second := List.flatMap_append

theorem written_literals (text : List Char) : written (text.map .literal) = text := by
  induction text with
  | nil => rfl
  | cons c rest ih => rw [List.map_cons, written_literal, ih]

theorem pieces_open {rest : List Char} (closed : '}' ∈ rest) :
    pieces false ('{' :: rest) = .placeholder :: pieces true rest := by
  rw [pieces, if_pos ⟨rfl, closed⟩]

theorem pieces_literal {c : Char} {rest : List Char} (plain : ¬(c = '{' ∧ '}' ∈ rest)) :
    pieces false (c :: rest) = .literal c :: pieces false rest := by
  rw [pieces, if_neg plain]

theorem pieces_name (unclosed : '}' ∉ front) :
    pieces true (front ++ '}' :: back) = pieces false back := by
  induction front with
  | nil => rw [List.nil_append, pieces, if_pos rfl]
  | cons c rest ih =>
      rw [List.mem_cons, not_or] at unclosed
      rw [List.cons_append, pieces, if_neg (Ne.symm unclosed.1), ih unclosed.2]

/-- What stands before the first opening brace stands for itself. -/
theorem pieces_append_unopened (plain : '{' ∉ front) (back : List Char) :
    pieces false (front ++ back) = front.map .literal ++ pieces false back := by
  induction front with
  | nil => rfl
  | cons c rest ih =>
      rw [List.mem_cons, not_or] at plain
      rw [List.cons_append, pieces_literal fun both => plain.1 both.1.symm, ih plain.2, List.map_cons,
        List.cons_append]

/-- What follows the last closing brace stands for itself. -/
theorem pieces_append (closed : inside = true → '}' ∈ front) (plain : '}' ∉ back) :
    pieces inside (front ++ back) = pieces inside front ++ back.map .literal := by
  induction front generalizing inside with
  | nil =>
      cases inside with
      | true => cases closed rfl
      | false =>
          induction back with
          | nil => rfl
          | cons c rest ih =>
              have later : '}' ∉ rest := fun among => plain (List.mem_cons_of_mem _ among)
              rw [List.nil_append, pieces_literal fun both => later both.2, List.map_cons]
              exact congrArg _ (ih later)
  | cons c rest ih =>
      cases inside with
      | true =>
          rw [List.cons_append, pieces, pieces]
          split
          · exact ih fun inside => Bool.noConfusion inside
          · rename_i other
            exact ih fun _ => (List.mem_cons.mp (closed rfl)).resolve_left (Ne.symm other)
      | false =>
          have among : '}' ∈ rest ++ back ↔ '}' ∈ rest := by simp [plain]
          rw [List.cons_append, pieces, pieces]
          simp only [among]
          split
          · rename_i opened
            rw [ih fun _ => opened.2, List.cons_append]
          · rw [ih fun inside => Bool.noConfusion inside, List.cons_append]

/-- The name of a placeholder is not seen. -/
theorem pieces_renamed {name other : List Char} (plain : '}' ∉ name) (plain' : '}' ∉ other)
    (inside : Bool) (front back : List Char) :
    pieces inside (front ++ '{' :: (name ++ '}' :: back)) =
      pieces inside (front ++ '{' :: (other ++ '}' :: back)) := by
  induction front generalizing inside with
  | nil =>
      cases inside with
      | true =>
          simp only [List.nil_append, pieces]
          rw [if_neg (by decide), if_neg (by decide), pieces_name plain, pieces_name plain']
      | false =>
          rw [List.nil_append, List.nil_append, pieces_open (by simp), pieces_open (by simp),
            pieces_name plain, pieces_name plain']
  | cons c rest ih =>
      cases inside with
      | true =>
          rw [List.cons_append, List.cons_append, pieces, pieces, ih, ih]
      | false =>
          have among (middle : List Char) : '}' ∈ rest ++ '{' :: (middle ++ '}' :: back) := by simp
          simp only [List.cons_append, pieces, among, ih]

/-- Read again, what is written has the same pieces. -/
theorem pieces_written (inside : Bool) (text : List Char) :
    pieces false (written (pieces inside text)) = pieces inside text := by
  induction text generalizing inside with
  | nil => cases inside <;> rfl
  | cons c rest ih =>
      cases inside with
      | true =>
          rw [pieces]
          split
          · exact ih false
          · exact ih true
      | false =>
          by_cases opened : c = '{' ∧ '}' ∈ rest
          · rw [opened.1, pieces_open opened.2, written_placeholder, pieces_open List.mem_cons_self,
              pieces, if_pos rfl, ih true]
          · rw [pieces_literal opened, written_literal]
            by_cases brace : c = '{'
            · have plain : '}' ∉ rest := fun among => opened ⟨brace, among⟩
              have all := @pieces_append false [] rest (fun inside => Bool.noConfusion inside) plain
              rw [List.nil_append] at all
              rw [all, pieces, List.nil_append, written_literals, pieces_literal opened, all, pieces,
                List.nil_append]
            · rw [pieces_literal fun both => brace both.1, ih false]

theorem written_pieces_length (text : List Char) :
    (written (pieces false text)).length ≤ text.length ∧
      ('}' ∈ text → (written (pieces true text)).length + 1 ≤ text.length) := by
  induction text with
  | nil => exact ⟨le_rfl, fun among => by cases among⟩
  | cons c rest ih =>
      refine ⟨?_, fun closed => ?_⟩
      · by_cases opened : c = '{' ∧ '}' ∈ rest
        · have shorter := ih.2 opened.2
          rw [opened.1, pieces_open opened.2, written_placeholder]
          simp only [List.length_cons]
          omega
        · have shorter := ih.1
          rw [pieces_literal opened, written_literal]
          simp only [List.length_cons]
          omega
      · rw [pieces]
        split
        · have shorter := ih.1
          rw [List.length_cons]
          omega
        · rename_i other
          have shorter := ih.2 ((List.mem_cons.mp closed).resolve_left (Ne.symm other))
          rw [List.length_cons]
          omega

theorem written_pieces_head (text : List Char) :
    (written (pieces false text)).head? = text.head? := by
  cases text with
  | nil => rfl
  | cons c rest =>
      by_cases opened : c = '{' ∧ '}' ∈ rest
      · rw [opened.1, pieces_open opened.2, written_placeholder]
        rfl
      · rw [pieces_literal opened, written_literal]
        rfl

theorem written_pieces_last (text : List Char) :
    (written (pieces false text)).getLast? = text.getLast? ∧
      ('}' ∈ text → ('}' :: written (pieces true text)).getLast? = text.getLast?) := by
  induction text with
  | nil => exact ⟨rfl, fun among => by cases among⟩
  | cons c rest ih =>
      have later : '}' ∈ rest → (c :: rest).getLast? = rest.getLast? := by
        intro among
        cases rest with
        | nil => cases among
        | cons d more => rw [List.getLast?_cons_cons]
      refine ⟨?_, fun closed => ?_⟩
      · by_cases opened : c = '{' ∧ '}' ∈ rest
        · rw [later opened.2, ← ih.2 opened.2, opened.1, pieces_open opened.2, written_placeholder,
            List.getLast?_cons_cons]
        · rw [pieces_literal opened, written_literal, List.getLast?_cons, List.getLast?_cons, ih.1]
      · rw [pieces]
        split
        · rename_i close
          rw [close, List.getLast?_cons, List.getLast?_cons, ih.1]
        · rename_i other
          have among := (List.mem_cons.mp closed).resolve_left (Ne.symm other)
          rw [later among, ih.2 among]

/-- A collapsed path stays collapsed when its placeholders are blanked. -/
theorem collapsed_written {before : Bool} (collapsed : collapseSlashes before text = text) :
    collapseSlashes before (written (pieces false text)) = written (pieces false text) ∧
      collapseSlashes false (written (pieces true text)) = written (pieces true text) := by
  induction text generalizing before with
  | nil => exact ⟨rfl, rfl⟩
  | cons c rest ih =>
      obtain ⟨single, tail⟩ := collapsed_tail collapsed
      obtain ⟨outside, inside⟩ := ih tail
      constructor
      · by_cases opened : c = '{' ∧ '}' ∈ rest
        · rw [opened.1, pieces_open opened.2, written_placeholder, collapseSlashes, if_neg (by decide),
            collapseSlashes, if_neg (by decide), inside]
        · rw [pieces_literal opened, written_literal, collapseSlashes]
          by_cases slash : c = '/'
          · rw [decide_eq_true slash] at outside
            rw [if_pos slash, single slash, outside, slash]
            rfl
          · rw [decide_eq_false slash] at outside
            rw [if_neg slash, outside]
      · rw [pieces]
        split
        · rename_i close
          rw [close] at outside
          exact outside
        · exact inside

/-- The scan for placeholders writes the pieces of the path. -/
theorem blankPathVariables_eq {fuel : ℕ} (enough : text.length < fuel) :
    blankPathVariables fuel text = written (pieces false text) := by
  induction fuel generalizing text with
  | zero => cases enough
  | succ fuel ih =>
      rw [blankPathVariables]
      obtain ⟨found, plain⟩ | ⟨front, rest, found, plain, rfl⟩ := splitOnce_spec '{' text
      · have whole := pieces_append_unopened plain []
        rw [List.append_nil] at whole
        rw [found, whole, written_append, written_literals]
        simp [pieces, written]
      · have reads : written (pieces false (front ++ '{' :: rest)) =
            front ++ written (pieces false ('{' :: rest)) := by
          rw [pieces_append_unopened plain, written_append, written_literals]
        have shorter : rest.length < fuel := by
          simp only [List.length_append, List.length_cons] at enough
          omega
        rw [found, reads]
        obtain ⟨closed, unclosed⟩ | ⟨name, later, closed, unclosed, rfl⟩ := splitOnce_spec '}' rest
        · simp only [closed]
          rw [pieces_literal fun both => unclosed both.2, written_literal, ih shorter]
          simp
        · have less : later.length < fuel := by
            simp only [List.length_append, List.length_cons] at shorter
            omega
          rw [pieces_open (by simp), pieces_name unclosed, written_placeholder]
          cases name with
          | nil =>
              simp only [closed]
              rw [ih shorter, List.nil_append, pieces_literal fun both => absurd both.1 (by decide),
                written_literal]
              simp
          | cons c more =>
              simp only [closed]
              rw [ih less]
              simp

end Placeholders

section Normal

/-- Without a slash at the end, unless it is all there is. -/
def dropSlash (text : List Char) : List Char :=
  if 1 < text.length ∧ text.getLast? = some '/' then text.dropLast else text

/-- A path without the blanks around it, with single slashes and none at the end. -/
def barePath (path : List Char) : List Char := dropSlash (collapseSlashes false (trimChars path))

variable {text path : List Char}

theorem dropSlash_cases (text : List Char) :
    dropSlash text = text ∧ (text = ['/'] ∨ text.getLast? ≠ some '/') ∨
      ∃ front, text = front ++ ['/'] ∧ front ≠ [] ∧ dropSlash text = front := by
  by_cases long : 1 < text.length ∧ text.getLast? = some '/'
  · obtain ⟨front, rfl⟩ := List.getLast?_eq_some_iff.mp long.2
    refine .inr ⟨front, rfl, ?_, ?_⟩
    · rintro rfl
      exact absurd long.1 (by decide)
    · rw [dropSlash, if_pos long, List.dropLast_concat]
  · refine .inl ⟨by rw [dropSlash, if_neg long], ?_⟩
    by_cases last : text.getLast? = some '/'
    · obtain ⟨front, rfl⟩ := List.getLast?_eq_some_iff.mp last
      have short : ¬1 < (front ++ ['/']).length := fun more => long ⟨more, last⟩
      rw [List.length_append, List.length_singleton] at short
      rw [List.length_eq_zero_iff.mp (by omega : front.length = 0)]
      exact .inl rfl
    · exact .inr last

/-- The slash at the end is none of a placeholder. -/
theorem dropSlash_written (text : List Char) :
    dropSlash (written (pieces false text)) = written (pieces false (dropSlash text)) := by
  have last := (written_pieces_last text).1
  obtain ⟨same, rfl | other⟩ | ⟨front, rfl, some, bare⟩ := dropSlash_cases text
  · rfl
  · rw [same, dropSlash, if_neg]
    rintro ⟨-, slash⟩
    rw [last] at slash
    exact other slash
  · have ends : written (pieces false (front ++ ['/'])) = written (pieces false front) ++ ['/'] := by
      rw [pieces_append (fun inside => Bool.noConfusion inside) (by decide), written_append,
        written_literals]
    have more : written (pieces false front) ≠ [] := by
      intro nothing
      have head := written_pieces_head front
      rw [nothing] at head
      exact some (List.head?_eq_none_iff.mp head.symm)
    have long := List.length_pos_iff.mpr more
    rw [bare, ends, dropSlash, if_pos, List.dropLast_concat]
    refine ⟨?_, List.getLast?_concat⟩
    rw [List.length_append, List.length_singleton]
    omega

theorem normalizePath_eq (path : String) :
    normalizePath path = String.ofList (written (pieces false (barePath path.toList))) := by
  have blanked := @blankPathVariables_eq (collapseSlashes false (trimChars path.toList)) _ (Nat.lt_succ_self _)
  unfold normalizePath
  dsimp only
  rw [blanked]
  exact congrArg String.ofList (dropSlash_written _)

/-- Two paths have one normal form exactly when their pieces are the same. -/
theorem normalizePath_eq_iff (first second : String) :
    normalizePath first = normalizePath second ↔
      pieces false (barePath first.toList) = pieces false (barePath second.toList) := by
  rw [normalizePath_eq, normalizePath_eq, String.ofList_inj]
  constructor
  · intro same
    have read := congrArg (pieces false) same
    rwa [pieces_written, pieces_written] at read
  · exact congrArg written

theorem barePath_sublist (path : List Char) : (barePath path).Sublist (trimChars path) := by
  have smaller : (barePath path).Sublist (collapseSlashes false (trimChars path)) := by
    unfold barePath
    obtain ⟨same, -⟩ | ⟨front, whole, -, bare⟩ := dropSlash_cases (collapseSlashes false (trimChars path))
    · rw [same]
    · rw [bare, whole]
      exact List.sublist_append_left _ _
  exact smaller.trans (collapseSlashes_sublist false _)

theorem barePath_collapsed (path : List Char) :
    collapseSlashes false (barePath path) = barePath path := by
  have collapsed := collapseSlashes_collapseSlashes false (trimChars path)
  unfold barePath
  obtain ⟨same, -⟩ | ⟨front, whole, -, bare⟩ := dropSlash_cases (collapseSlashes false (trimChars path))
  · rw [same, collapsed]
  · rw [bare]
    rw [whole] at collapsed
    exact collapsed_prefix collapsed

theorem barePath_head (path : List Char) : (barePath path).head? = (trimChars path).head? := by
  rw [← collapseSlashes_head (trimChars path)]
  unfold barePath
  obtain ⟨same, -⟩ | ⟨front, whole, some, bare⟩ := dropSlash_cases (collapseSlashes false (trimChars path))
  · rw [same]
  · rw [bare, whole, List.head?_append_of_ne_nil _ some]

theorem barePath_dropSlash (path : List Char) : dropSlash (barePath path) = barePath path := by
  have collapsed := collapseSlashes_collapseSlashes false (trimChars path)
  unfold barePath
  obtain ⟨same, -⟩ | ⟨front, whole, some, bare⟩ := dropSlash_cases (collapseSlashes false (trimChars path))
  · rw [same, same]
  · rw [bare]
    obtain ⟨same, -⟩ | ⟨rest, rfl, -, -⟩ := dropSlash_cases front
    · exact same
    -- Two slashes at the end would have been one.
    · rw [whole, collapseSlashes_append] at collapsed
      have after : slashAfter false (rest ++ ['/']) = true := by simp [slashAfter]
      have gone : collapseSlashes true ['/'] = [] := rfl
      rw [after, gone, List.append_nil] at collapsed
      have short := (collapseSlashes_sublist false (rest ++ ['/'])).length_le
      rw [collapsed] at short
      simp at short

/-- A path is its own bare form exactly when it is trimmed. -/
theorem barePath_written (trimmed : Trimmed (written (pieces false (barePath path)))) :
    barePath (written (pieces false (barePath path))) = written (pieces false (barePath path)) := by
  have collapsed := (collapsed_written (barePath_collapsed path)).1
  rw [barePath, trimmed.trimChars_eq, collapsed, dropSlash_written, barePath_dropSlash]

theorem normalizePath_twice_iff (path : String) :
    normalizePath (normalizePath path) = normalizePath path ↔
      ∀ c ∈ (barePath path.toList).getLast?, isWhiteSpace c = false := by
  have again : normalizePath (normalizePath path) = normalizePath path ↔
      Trimmed (written (pieces false (barePath path.toList))) := by
    constructor
    · intro same
      have whole := congrArg (fun text => text.toList.length) same
      rw [normalizePath_eq (normalizePath path), normalizePath_eq path, String.toList_ofList,
        String.toList_ofList] at whole
      generalize written (pieces false (barePath path.toList)) = text at whole
      have blanked := (written_pieces_length (barePath text)).1
      have bare := (barePath_sublist text).length_le
      have trimmed := (trimChars_sublist text).length_le
      exact trimChars_eq_iff.mp ((trimChars_sublist text).eq_of_length (by omega))
    · intro trimmed
      rw [normalizePath_eq (normalizePath path), normalizePath_eq path, String.toList_ofList,
        barePath_written trimmed, pieces_written]
  rw [again]
  constructor
  · intro trimmed
    rw [← (written_pieces_last (barePath path.toList)).1]
    exact trimmed.finish
  · intro solid
    constructor
    · rw [written_pieces_head, barePath_head]
      exact (trimmed_trimChars path.toList).start
    · rw [(written_pieces_last (barePath path.toList)).1]
      exact solid

end Normal
end Sanshain.Document.OpenApiDocument
