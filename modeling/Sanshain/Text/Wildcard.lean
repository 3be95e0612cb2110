import Mathlib.Tactic

namespace Sanshain.Text

/-- One piece of a wildcard pattern: any run of characters, any one character, or this one. -/
inductive Piece (α : Type) where
  | any
  | single
  | literal (a : α)
  deriving DecidableEq, Repr

namespace Piece

variable {α : Type}

/-- The runs that a piece stands for. -/
def Denotes : Piece α → List α → Prop
  | .any, _ => True
  | .single, run => ∃ a, run = [a]
  | .literal a, run => run = [a]

/-- The single characters that a piece stands for. -/
def Fits : Piece α → α → Prop
  | .any, _ => False
  | .single, _ => True
  | .literal a, b => a = b

end Piece

variable {α : Type} {pattern rest segment : List (Piece α)} {text run later : List α} {piece : Piece α}

/-- The text is the concatenation of one run for each piece. -/
def Matches (pattern : List (Piece α)) (text : List α) : Prop :=
  ∃ runs, List.Forall₂ Piece.Denotes pattern runs ∧ runs.flatten = text

theorem denotes_iff_fits (rigid : piece ≠ .any) :
    piece.Denotes run ↔ ∃ a, run = [a] ∧ piece.Fits a := by
  cases piece with
  | any => exact absurd rfl rigid
  | single => simp [Piece.Denotes, Piece.Fits]
  | literal b =>
      constructor
      · rintro rfl
        exact ⟨b, rfl, rfl⟩
      · rintro ⟨a, rfl, rfl⟩
        rfl

@[simp] theorem matches_nil : Matches ([] : List (Piece α)) text ↔ text = [] := by
  simp [Matches, eq_comm]

theorem matches_cons :
    Matches (piece :: rest) text ↔
      ∃ run later, piece.Denotes run ∧ Matches rest later ∧ run ++ later = text := by
  constructor
  · rintro ⟨runs, each, whole⟩
    cases each with
    | cons first others => exact ⟨_, _, first, ⟨_, others, rfl⟩, whole⟩
  · rintro ⟨run, later, first, ⟨runs, others, rfl⟩, whole⟩
    exact ⟨run :: runs, .cons first others, whole⟩

theorem matches_any_cons :
    Matches (.any :: rest) text ↔ ∃ later, later <:+ text ∧ Matches rest later := by
  rw [matches_cons]
  constructor
  · rintro ⟨run, later, -, held, whole⟩
    exact ⟨later, ⟨run, whole⟩, held⟩
  · rintro ⟨later, ⟨run, whole⟩, held⟩
    exact ⟨run, later, trivial, held, whole⟩

theorem matches_rigid_cons (rigid : piece ≠ .any) :
    Matches (piece :: rest) text ↔ ∃ a later, text = a :: later ∧ piece.Fits a ∧ Matches rest later := by
  rw [matches_cons]
  constructor
  · rintro ⟨run, later, first, held, rfl⟩
    obtain ⟨a, rfl, fits⟩ := (denotes_iff_fits rigid).mp first
    exact ⟨a, later, rfl, fits, held⟩
  · rintro ⟨a, later, rfl, fits, held⟩
    exact ⟨[a], later, (denotes_iff_fits rigid).mpr ⟨a, rfl, fits⟩, held, rfl⟩

/-- Only stars match the empty text. -/
theorem matches_nil_text : Matches pattern [] ↔ ∀ piece ∈ pattern, piece = .any := by
  induction pattern with
  | nil => simp
  | cons piece rest ih =>
      by_cases star : piece = .any
      · subst star
        rw [matches_any_cons]
        simp [ih]
      · rw [matches_rigid_cons star]
        simp [star]

section Segments

/-- Pieces without a star, each with its character. -/
def Along (segment : List (Piece α)) (run : List α) : Prop := List.Forall₂ Piece.Fits segment run

theorem Piece.Fits.rigid {a : α} (fits : piece.Fits a) : piece ≠ .any := by
  rintro rfl
  exact fits

theorem Along.rigid (along : Along segment run) : ∀ piece ∈ segment, piece ≠ .any := by
  induction along with
  | nil => simp
  | cons fits _ ih =>
      intro piece among
      rcases List.mem_cons.mp among with rfl | held
      · exact fits.rigid
      · exact ih piece held

theorem Along.concat {a : α} (along : Along segment run) (fits : piece.Fits a) :
    Along (segment ++ [piece]) (run ++ [a]) :=
  List.rel_append along (.cons fits .nil)

/-- A segment without a star that fits its run leaves the rest of the match as it is. -/
theorem matches_along (along : Along segment run) :
    Matches (segment ++ rest) (run ++ text) ↔ Matches rest text := by
  induction along with
  | nil => rfl
  | cons fits _ ih =>
      rw [List.cons_append, List.cons_append, matches_rigid_cons fits.rigid, ← ih]
      constructor
      · rintro ⟨a, later, whole, -, held⟩
        obtain ⟨rfl, rfl⟩ := List.cons.inj whole
        exact held
      · intro held
        exact ⟨_, _, rfl, fits, held⟩

/-- A segment without a star takes as many characters as it has pieces. -/
theorem Matches.split (rigid : ∀ piece ∈ segment, piece ≠ .any) (held : Matches (segment ++ rest) text) :
    ∃ run later, text = run ++ later ∧ run.length = segment.length ∧ Matches rest later := by
  induction segment generalizing text with
  | nil => exact ⟨[], text, rfl, rfl, held⟩
  | cons piece pieces ih =>
      rw [List.cons_append, matches_rigid_cons (rigid piece List.mem_cons_self)] at held
      obtain ⟨a, later, rfl, -, held⟩ := held
      obtain ⟨run, more, rfl, length, held⟩ :=
        ih (fun other among => rigid other (List.mem_cons_of_mem _ among)) held
      exact ⟨a :: run, more, rfl, by simp [length], held⟩

/-- The leftmost place of a segment will do: whatever a later place leaves for the next star, the
first one leaves as well. -/
theorem matches_next_any (along : Along segment run) :
    (∃ later, later <:+ run ++ text ∧ Matches (segment ++ .any :: rest) later) ↔
      ∃ later, later <:+ text ∧ Matches rest later := by
  constructor
  · rintro ⟨later, suffix, held⟩
    obtain ⟨front, more, rfl, length, held⟩ := held.split along.rigid
    obtain ⟨last, inside, held⟩ := matches_any_cons.mp held
    have size : front.length = run.length := length.trans along.length_eq
    have short : more.length ≤ text.length := by
      have bound := suffix.length_le
      simp only [List.length_append] at bound
      omega
    have within : more <:+ text :=
      List.suffix_of_suffix_length_le ((List.suffix_append front more).trans suffix)
        (List.suffix_append run text) short
    exact ⟨last, inside.trans within, held⟩
  · rintro ⟨later, suffix, held⟩
    exact ⟨run ++ text, List.suffix_refl _,
      (matches_along along).mpr (matches_any_cons.mpr ⟨later, suffix, held⟩)⟩

end Segments
end Sanshain.Text
