import Sanshain.Document.PathForm

namespace Sanshain.Guarantees

open Sanshain.Document.OpenApiDocument Sanshain.Text

section Respellings

/-- Two paths that differ in the white space around them, in one slash of a run, in a slash at the
end or in the name of a placeholder. -/
inductive PathStep : List Char → List Char → Prop
  | blank {front path back : List Char} (before : ∀ c ∈ front, isWhiteSpace c = true)
      (after : ∀ c ∈ back, isWhiteSpace c = true) : PathStep (front ++ path ++ back) path
  | slashes (front back : List Char) : PathStep (front ++ '/' :: '/' :: back) (front ++ '/' :: back)
  | trailing (path : List Char) : PathStep (path ++ ['/']) path
  | name (front back : List Char) {name other : List Char} (some : name ≠ []) (someOther : other ≠ [])
      (plain : '}' ∉ name) (plainOther : '}' ∉ other) :
      PathStep (front ++ '{' :: (name ++ '}' :: back)) (front ++ '{' :: (other ++ '}' :: back))

/-- Two paths that differ in such steps only. -/
def Respelled : List Char → List Char → Prop := Relation.EqvGen PathStep

def isEnding (c : Char) : Bool := isWhiteSpace c || c = '/'

/-- The white space and slashes at the end of a trimmed path, without the trailing slash. -/
def ending (path : List Char) : List Char := (barePath path).rtakeWhile isEnding

/-- The path without white space and slashes at its end. -/
def stem (path : List Char) : List Char :=
  collapseSlashes false ((path.dropWhile isWhiteSpace).rdropWhile isEnding)

/-- The trimmed path ends in white space with slashes after it. -/
def BlankBeforeSlash (path : List Char) : Prop :=
  ∃ front blank slashes, trimChars path = front ++ blank :: slashes ∧ isWhiteSpace blank = true ∧
    slashes ≠ [] ∧ ∀ c ∈ slashes, c = '/'

variable {path first second : List Char}

theorem isEnding_of_blank (c : Char) (blank : isWhiteSpace c = true) : isEnding c = true := by
  rw [isEnding, blank, Bool.true_or]

theorem rdropWhile_collapseSlashes (before : Bool) (text : List Char) :
    (collapseSlashes before text).rdropWhile isEnding = collapseSlashes before (text.rdropWhile isEnding) := by
  induction text using List.reverseRecOn with
  | nil => rfl
  | append_singleton rest c ih =>
      rw [collapseSlashes_append]
      by_cases falls : isEnding c = true
      · have all : ∀ d ∈ collapseSlashes (slashAfter before rest) [c], isEnding d = true := by
          intro d among
          have same := (collapseSlashes_sublist _ _).subset among
          rw [List.mem_singleton.mp same]
          exact falls
        rw [rdropWhile_append_of_all all, List.rdropWhile_concat_pos _ _ _ falls, ih]
      · have other : c ≠ '/' := by
          rintro rfl
          exact falls rfl
        have kept : collapseSlashes (slashAfter before rest) [c] = [c] := by
          rw [collapseSlashes, if_neg other, collapseSlashes]
        rw [kept, List.rdropWhile_concat_neg _ _ _ falls, List.rdropWhile_concat_neg _ _ _ falls,
          collapseSlashes_append, kept]

theorem rdropWhile_dropSlash (text : List Char) :
    (dropSlash text).rdropWhile isEnding = text.rdropWhile isEnding := by
  obtain ⟨same, -⟩ | ⟨front, rfl, -, bare⟩ := dropSlash_cases text
  · rw [same]
  · rw [bare, List.rdropWhile_concat_pos _ _ _ rfl]

theorem barePath_split (path : List Char) : barePath path = stem path ++ ending path := by
  have front : (barePath path).rdropWhile isEnding = stem path := by
    rw [barePath, rdropWhile_dropSlash, rdropWhile_collapseSlashes, trimChars_eq_rdropWhile,
      rdropWhile_rdropWhile isEnding_of_blank, stem]
  rw [← front, ending, List.rdropWhile_append_rtakeWhile]

theorem pieces_split (path : List Char) :
    written (pieces false (barePath path)) = written (pieces false (stem path)) ++ ending path := by
  have plain : '}' ∉ ending path := fun among =>
    absurd (List.mem_rtakeWhile_imp among) (by decide)
  rw [barePath_split, pieces_append (fun inside => Bool.noConfusion inside) plain, written_append,
    written_literals]

theorem stem_append {back : List Char} (falls : ∀ c ∈ back, isEnding c = true) (path : List Char) :
    stem (path ++ back) = stem path := by
  rw [stem, stem, rdropWhile_dropWhile_append isEnding_of_blank falls]

theorem stem_blank {front : List Char} (blank : ∀ c ∈ front, isWhiteSpace c = true) (path : List Char) :
    stem (front ++ path) = stem path := by
  rw [stem, stem, List.dropWhile_append_of_pos blank]

/-- A character that falls at neither end parts the stem. -/
theorem stem_cons {c : Char} (start : isWhiteSpace c = false) (front back : List Char) :
    stem (front ++ c :: back) =
      collapseSlashes false ((front.dropWhile isWhiteSpace ++ c :: back).rdropWhile isEnding) := by
  rw [stem, dropWhile_append_cons start]

theorem stem_slashes (front back : List Char) :
    stem (front ++ '/' :: '/' :: back) = stem (front ++ '/' :: back) := by
  rw [stem_cons (by decide), stem_cons (by decide)]
  generalize front.dropWhile isWhiteSpace = start
  by_cases falls : ∀ c ∈ back, isEnding c = true
  · have all : ∀ c ∈ '/' :: back, isEnding c = true := List.forall_mem_cons.mpr ⟨rfl, falls⟩
    rw [rdropWhile_append_of_all all, rdropWhile_append_of_all (List.forall_mem_cons.mpr ⟨rfl, all⟩)]
  · obtain ⟨c, among, stays⟩ : ∃ c ∈ back, isEnding c = false := by simpa using falls
    obtain ⟨before, after, rfl⟩ := List.append_of_mem among
    have longer := rdropWhile_append_cons stays (start ++ '/' :: '/' :: before) after
    have shorter := rdropWhile_append_cons stays (start ++ '/' :: before) after
    simp only [List.append_assoc, List.cons_append] at longer shorter
    rw [longer, shorter, collapseSlashes_append, collapseSlashes_append]
    cases slashAfter false start <;> simp [collapseSlashes]

theorem stem_name (front name back : List Char) :
    stem (front ++ '{' :: (name ++ '}' :: back)) =
      collapseSlashes false (front.dropWhile isWhiteSpace) ++
        '{' :: (collapseSlashes false name ++ '}' :: collapseSlashes false (back.rdropWhile isEnding)) := by
  have closes := rdropWhile_append_cons (by decide : isEnding '}' = false)
    (front.dropWhile isWhiteSpace ++ '{' :: name) back
  simp only [List.append_assoc, List.cons_append] at closes
  rw [stem_cons (by decide), closes, collapseSlashes_append, collapseSlashes, if_neg (by decide),
    collapseSlashes_append, collapseSlashes, if_neg (by decide)]

/-- No step is seen before the ending. -/
theorem PathStep.stem_eq (step : PathStep first second) :
    pieces false (stem first) = pieces false (stem second) := by
  cases step with
  | blank before after =>
      rw [stem_append fun c among => isEnding_of_blank c (after c among), stem_blank before]
  | slashes front back => rw [stem_slashes]
  | trailing =>
      rw [stem_append]
      intro c among
      rw [List.mem_singleton.mp among]
      rfl
  | @name front back name other some someOther plain plainOther =>
      rw [stem_name, stem_name]
      exact pieces_renamed (fun among => plain ((collapseSlashes_sublist _ _).subset among))
        (fun among => plainOther ((collapseSlashes_sublist _ _).subset among)) _ _ _

theorem Respelled.stem_eq (same : Respelled first second) :
    pieces false (stem first) = pieces false (stem second) := by
  induction same with
  | rel _ _ step => exact step.stem_eq
  | refl => rfl
  | symm _ _ _ ih => exact ih.symm
  | trans _ _ _ _ _ front back => exact front.trans back

theorem collapseSlashes_run {slashes : List Char} (some : slashes ≠ []) (all : ∀ c ∈ slashes, c = '/') :
    collapseSlashes false slashes = ['/'] := by
  have rest (more : List Char) (all : ∀ c ∈ more, c = '/') : collapseSlashes true more = [] := by
    induction more with
    | nil => rfl
    | cons c later ih =>
        rw [collapseSlashes, if_pos (all c List.mem_cons_self), if_pos rfl]
        exact ih fun d among => all d (List.mem_cons_of_mem _ among)
  cases slashes with
  | nil => exact absurd rfl some
  | cons c more =>
      rw [collapseSlashes, if_pos (all c List.mem_cons_self), if_neg Bool.false_ne_true,
        rest more fun d among => all d (List.mem_cons_of_mem _ among)]

theorem blank_ne_slash {c : Char} (white : isWhiteSpace c = true) : c ≠ '/' := by
  rintro rfl
  cases white

theorem blankBeforeSlash_iff (path : List Char) :
    BlankBeforeSlash path ↔ ∃ c ∈ (barePath path).getLast?, isWhiteSpace c = true := by
  constructor
  · rintro ⟨front, blank, slashes, whole, white, some, all⟩
    have collapsed : collapseSlashes false (trimChars path) =
        (collapseSlashes false front ++ [blank]) ++ ['/'] := by
      rw [whole, collapseSlashes_append, collapseSlashes, if_neg (blank_ne_slash white),
        collapseSlashes_run some all]
      simp
    refine ⟨blank, ?_, white⟩
    rw [barePath, collapsed, dropSlash, if_pos (by simp), List.dropLast_concat]
    exact List.getLast?_concat
  · rintro ⟨blank, final, white⟩
    have last := collapseSlashes_last (trimChars path)
    unfold barePath at final
    obtain ⟨same, -⟩ | ⟨front, whole, -, bare⟩ := dropSlash_cases (collapseSlashes false (trimChars path))
    · rw [same, last] at final
      rw [(trimmed_trimChars path).finish blank final] at white
      cases white
    · rw [bare] at final
      -- The slashes at the end are one run, and the blank stands before it.
      have split : (trimChars path).rdropWhile (fun c => c = '/') ++
          (trimChars path).rtakeWhile (fun c => c = '/') = trimChars path :=
        List.rdropWhile_append_rtakeWhile
      generalize known : (trimChars path).rdropWhile (fun c => c = '/') = start at split
      generalize run : (trimChars path).rtakeWhile (fun c => c = '/') = slashes at split
      have all : ∀ c ∈ slashes, c = '/' := by
        intro c among
        rw [← run] at among
        simpa using List.mem_rtakeWhile_imp among
      have some : slashes ≠ [] := by
        rintro rfl
        rw [whole, List.getLast?_concat] at last
        obtain ⟨rest, ends⟩ := List.getLast?_eq_some_iff.mp last.symm
        rw [ends, List.rtakeWhile_concat_pos _ _ _ (by simp)] at run
        simp at run
      have apart : slashAfter false start = false := by
        have other := @rdropWhile_last Char (fun c => c = '/') (trimChars path)
        rw [known] at other
        unfold slashAfter
        cases ends : start.getLast? with
        | none => rfl
        | some c => exact other c ends
      rw [← split, collapseSlashes_append, apart, collapseSlashes_run some all] at whole
      have same := List.append_cancel_right whole
      rw [← same, collapseSlashes_last] at final
      obtain ⟨before, rfl⟩ := List.getLast?_eq_some_iff.mp final
      exact ⟨before, blank, slashes, by rw [← split]; simp, white, some, all⟩

end Respellings

/-- A normal form is its own exactly when no white space stands before the trailing slash of the
path; respelled paths have one normal form exactly when their endings are the same, and paths of
different pieces never have one. -/
theorem normalizePath_canonical_iff (path first second : String) :
    (normalizePath (normalizePath path) = normalizePath path ↔ ¬BlankBeforeSlash path.toList) ∧
    (Respelled first.toList second.toList →
      (normalizePath first = normalizePath second ↔ ending first.toList = ending second.toList)) ∧
    (pieces false (barePath first.toList) ≠ pieces false (barePath second.toList) →
      normalizePath first ≠ normalizePath second) := by
  refine ⟨?_, fun same => ?_, fun differ same => ?_⟩
  · rw [normalizePath_twice_iff, blankBeforeSlash_iff]
    simp
  · rw [normalizePath_eq, normalizePath_eq, String.ofList_inj, pieces_split, pieces_split, same.stem_eq,
      List.append_cancel_left_eq]
  · exact differ ((normalizePath_eq_iff first second).mp same)

/-- The white space before a trailing slash is trimmed the second time only. -/
theorem blank_before_slash_is_kept :
    normalizePath (normalizePath "/a /") ≠ normalizePath "/a /" ∧
      Respelled "/a /".toList "/a ".toList ∧ normalizePath "/a /" ≠ normalizePath "/a " := by
  refine ⟨by decide +kernel, ?_, by decide +kernel⟩
  exact .rel _ _ (.trailing "/a ".toList)

end Sanshain.Guarantees
