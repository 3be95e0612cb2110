import Sanshain.Application.Webhooks
import Sanshain.Text.Wildcard

namespace Sanshain.Guarantees

open Sanshain.Application Sanshain.Text

/-- What a character of a Producer-name glob stands for. -/
def globPiece (c : Char) : Piece Char :=
  if c = '*' then .any else if c = '?' then .single else .literal c

/-- The turns of the matching loop up to its answer. -/
inductive GlobRuns (pattern text : List Char) : Nat → Nat → Option (Nat × Nat) → Bool → Prop
  | finished {p t : Nat} {mark : Option (Nat × Nat)} (past : text[t]? = none) :
      GlobRuns pattern text p t mark ((pattern.drop p).all (· = '*'))
  | star {p t : Nat} {mark : Option (Nat × Nat)} {current : Char} {answer : Bool}
      (here : text[t]? = some current) (opens : pattern[p]? = some '*')
      (later : GlobRuns pattern text (p + 1) t (some (p, t)) answer) :
      GlobRuns pattern text p t mark answer
  | character {p t : Nat} {mark : Option (Nat × Nat)} {current : Char} {answer : Bool}
      (here : text[t]? = some current) (plain : pattern[p]? ≠ some '*')
      (fits : pattern[p]? = some '?' ∨ pattern[p]? = some current)
      (later : GlobRuns pattern text (p + 1) (t + 1) mark answer) :
      GlobRuns pattern text p t mark answer
  | back {p t sp st : Nat} {current : Char} {answer : Bool} (here : text[t]? = some current)
      (plain : pattern[p]? ≠ some '*')
      (fails : ¬(pattern[p]? = some '?' ∨ pattern[p]? = some current))
      (later : GlobRuns pattern text (sp + 1) (st + 1) (some (sp, st + 1)) answer) :
      GlobRuns pattern text p t (some (sp, st)) answer
  | refused {p t : Nat} {current : Char} (here : text[t]? = some current)
      (plain : pattern[p]? ≠ some '*')
      (fails : ¬(pattern[p]? = some '?' ∨ pattern[p]? = some current)) :
      GlobRuns pattern text p t none false

section Turns

variable {pattern text : List Char} {p t : Nat} {mark : Option (Nat × Nat)}

/-- Where the last star has been given its characters up to. -/
def starAt (mark : Option (Nat × Nat)) : Nat := (mark.map Prod.snd).getD 0

/-- The cursors stay within the texts, and the star behind them. -/
structure Within (pattern text : List Char) (p t : Nat) (mark : Option (Nat × Nat)) : Prop where
  pattern : p ≤ pattern.length
  text : t ≤ text.length
  behind : starAt mark ≤ t
  opened : ∀ opened ∈ mark, opened.1 < p

/-- The turns that may be left: the star only moves on, and between two of its moves the pattern
cursor does. -/
def turnsLeft (pattern text : List Char) (p : Nat) (mark : Option (Nat × Nat)) : Nat :=
  (text.length - starAt mark) * (pattern.length + 1) + (pattern.length - p)

theorem Within.start (pattern text : List Char) : Within pattern text 0 0 none :=
  ⟨Nat.zero_le _, Nat.zero_le _, le_rfl, by simp⟩

theorem Within.star (within : Within pattern text p t mark) (inside : p < pattern.length) :
    Within pattern text (p + 1) t (some (p, t)) ∧
      turnsLeft pattern text (p + 1) (some (p, t)) < turnsLeft pattern text p mark := by
  refine ⟨⟨inside, within.text, le_rfl, by simp⟩, ?_⟩
  have nearer : text.length - t ≤ text.length - starAt mark := Nat.sub_le_sub_left within.behind _
  have product := Nat.mul_le_mul_right (pattern.length + 1) nearer
  change (text.length - t) * (pattern.length + 1) + _ < _
  unfold turnsLeft
  omega

theorem Within.character (within : Within pattern text p t mark) (inside : p < pattern.length)
    (there : t < text.length) :
    Within pattern text (p + 1) (t + 1) mark ∧
      turnsLeft pattern text (p + 1) mark < turnsLeft pattern text p mark := by
  refine ⟨⟨inside, there, within.behind.trans (Nat.le_succ t),
    fun opened among => (within.opened opened among).trans (Nat.lt_succ_self p)⟩, ?_⟩
  unfold turnsLeft
  omega

theorem Within.back {sp st : Nat} (within : Within pattern text p t (some (sp, st)))
    (there : t < text.length) :
    Within pattern text (sp + 1) (st + 1) (some (sp, st + 1)) ∧
      turnsLeft pattern text (sp + 1) (some (sp, st + 1)) <
        turnsLeft pattern text p (some (sp, st)) := by
  have behind : st ≤ t := within.behind
  have opened : sp < p := within.opened _ rfl
  have bound := within.pattern
  refine ⟨⟨by omega, by omega, le_rfl, by simp⟩, ?_⟩
  have step : text.length - st = text.length - (st + 1) + 1 := by omega
  change (text.length - (st + 1)) * (pattern.length + 1) + _ <
    (text.length - st) * (pattern.length + 1) + _
  rw [step, Nat.add_mul, Nat.one_mul]
  omega

/-- With more fuel than turns are left, the loop comes to its answer. -/
theorem globRuns_globLoop {fuel : Nat} (within : Within pattern text p t mark)
    (enough : turnsLeft pattern text p mark < fuel) :
    GlobRuns pattern text p t mark (globLoop pattern text fuel p t mark) := by
  induction fuel generalizing p t mark with
  | zero => exact absurd enough (Nat.not_lt_zero _)
  | succ fuel ih =>
      unfold globLoop
      cases here : text[t]? with
      | none => exact .finished here
      | some current =>
          have there : t < text.length := (List.getElem?_eq_some_iff.mp here).1
          simp only
          split
          · rename_i opens
            have inside : p < pattern.length := (List.getElem?_eq_some_iff.mp opens).1
            obtain ⟨next, less⟩ := within.star inside
            exact .star here opens (ih next (by omega))
          · rename_i plain
            split
            · rename_i fits
              have inside : p < pattern.length := by
                rcases fits with one | same
                · exact (List.getElem?_eq_some_iff.mp one).1
                · exact (List.getElem?_eq_some_iff.mp same).1
              obtain ⟨next, less⟩ := within.character inside there
              exact .character here plain fits (ih next (by omega))
            · rename_i fails
              cases mark with
              | none => exact .refused here plain fails
              | some opened =>
                  obtain ⟨next, less⟩ := within.back there
                  exact .back here plain fails (ih next (less.trans_le (Nat.le_of_lt_succ enough)))

theorem globRuns_globMatches (glob name : String) :
    GlobRuns glob.toList name.toList 0 0 none (globMatches glob name) := by
  refine globRuns_globLoop (.start _ _) ?_
  change (name.toList.length - 0) * (glob.toList.length + 1) + (glob.toList.length - 0) < _
  rw [Nat.sub_zero, Nat.sub_zero]
  generalize name.toList.length = size
  generalize glob.toList.length = width
  ring_nf
  omega

end Turns

section Pieces

variable {c current : Char}

theorem globPiece_eq_any : globPiece c = .any ↔ c = '*' := by
  unfold globPiece
  split
  · simp [*]
  · split <;> simp [*]

theorem globPiece_fits (plain : c ≠ '*') : (globPiece c).Fits current ↔ c = '?' ∨ c = current := by
  rw [globPiece, if_neg plain]
  split
  · simp [Piece.Fits, *]
  · simp [Piece.Fits, *]

end Pieces

section Greedy

variable {pattern text : List Char} {p t : Nat} {mark : Option (Nat × Nat)}

/-- What the cursors say of the whole match: without a star the rest decides; after a star any place
from its own on may, and the part of the pattern since then fits the text where it stands. -/
def Greedy (pattern text : List (Char)) (p t : Nat) : Option (Nat × Nat) → Prop
  | none => Matches (pattern.map globPiece) text ↔
      Matches ((pattern.drop p).map globPiece) (text.drop t)
  | some (sp, st) => ∃ segment run, (pattern.drop (sp + 1)).map globPiece =
        segment ++ (pattern.drop p).map globPiece ∧ text.drop st = run ++ text.drop t ∧
      Along segment run ∧ (Matches (pattern.map globPiece) text ↔
        ∃ later, later <:+ text.drop st ∧ Matches ((pattern.drop (sp + 1)).map globPiece) later)

theorem drop_of_getElem? {α : Type} {list : List α} {place : Nat} {a : α}
    (there : list[place]? = some a) : list.drop place = a :: list.drop (place + 1) := by
  obtain ⟨inside, rfl⟩ := List.getElem?_eq_some_iff.mp there
  exact List.drop_eq_getElem_cons inside

/-- A new star takes over from the one before it. -/
theorem Greedy.star (greedy : Greedy pattern text p t mark) (opens : pattern[p]? = some '*') :
    Greedy pattern text (p + 1) t (some (p, t)) := by
  have next : (pattern.drop p).map globPiece = .any :: (pattern.drop (p + 1)).map globPiece := by
    rw [drop_of_getElem? opens]
    rfl
  refine ⟨[], [], rfl, rfl, .nil, ?_⟩
  cases mark with
  | none =>
      rw [Greedy, next] at greedy
      exact greedy.trans matches_any_cons
  | some opened =>
      obtain ⟨segment, run, parts, whole, along, greedy⟩ := greedy
      rw [parts, whole, next] at greedy
      exact greedy.trans (matches_next_any along)

theorem Greedy.character {current : Char} (greedy : Greedy pattern text p t mark)
    (here : text[t]? = some current) (plain : pattern[p]? ≠ some '*')
    (fits : pattern[p]? = some '?' ∨ pattern[p]? = some current) :
    Greedy pattern text (p + 1) (t + 1) mark := by
  obtain ⟨c, there, same⟩ : ∃ c, pattern[p]? = some c ∧ (c = '?' ∨ c = current) := by
    rcases fits with one | same
    · exact ⟨_, one, .inl rfl⟩
    · exact ⟨_, same, .inr rfl⟩
  have other : c ≠ '*' := fun equal => plain (equal ▸ there)
  have takes : (globPiece c).Fits current := (globPiece_fits other).mpr same
  have next : (pattern.drop p).map globPiece =
      globPiece c :: (pattern.drop (p + 1)).map globPiece := by
    rw [drop_of_getElem? there]
    rfl
  cases mark with
  | none =>
      rw [Greedy, next, drop_of_getElem? here] at greedy
      exact greedy.trans (matches_along (.cons takes .nil))
  | some opened =>
      obtain ⟨segment, run, parts, whole, along, greedy⟩ := greedy
      refine ⟨segment ++ [globPiece c], run ++ [current], ?_, ?_, along.concat takes, greedy⟩
      · rw [parts, next, List.append_assoc]
        rfl
      · rw [whole, drop_of_getElem? here, List.append_assoc]
        rfl

/-- A character that neither the pattern's next one fits nor a star can take matches nothing. -/
theorem not_matches_of_misfit {current : Char} (here : text[t]? = some current)
    (plain : pattern[p]? ≠ some '*')
    (fails : ¬(pattern[p]? = some '?' ∨ pattern[p]? = some current)) :
    ¬ Matches ((pattern.drop p).map globPiece) (text.drop t) := by
  rw [drop_of_getElem? here]
  cases there : pattern[p]? with
  | none =>
      rw [List.drop_eq_nil_of_le (List.getElem?_eq_none_iff.mp there), List.map_nil, matches_nil]
      exact List.cons_ne_nil _ _
  | some c =>
      rw [there, Option.some.injEq, Option.some.injEq] at fails
      have other : c ≠ '*' := fun equal => plain (equal ▸ there)
      rw [drop_of_getElem? there, List.map_cons,
        matches_rigid_cons fun equal => other (globPiece_eq_any.mp equal)]
      rintro ⟨a, later, same, fits, -⟩
      obtain ⟨rfl, rfl⟩ := List.cons.inj same
      exact fails ((globPiece_fits other).mp fits)

/-- A misfit rules out the place of the star it was reached from. -/
theorem Greedy.back {sp st : Nat} (greedy : Greedy pattern text p t (some (sp, st)))
    (inside : st < text.length)
    (stuck : ¬ Matches ((pattern.drop p).map globPiece) (text.drop t)) :
    Greedy pattern text (sp + 1) (st + 1) (some (sp, st + 1)) := by
  obtain ⟨segment, run, parts, whole, along, greedy⟩ := greedy
  refine ⟨[], [], rfl, rfl, .nil, greedy.trans ?_⟩
  have first : text.drop st = text[st] :: text.drop (st + 1) := List.drop_eq_getElem_cons inside
  constructor
  · rintro ⟨later, suffix, held⟩
    rw [first, List.suffix_cons_iff, ← first] at suffix
    rcases suffix with rfl | further
    · rw [parts, whole, matches_along along] at held
      exact absurd held stuck
    · exact ⟨later, further, held⟩
  · rintro ⟨later, suffix, held⟩
    rw [first]
    exact ⟨later, suffix.trans (List.suffix_cons _ _), held⟩

/-- Stars alone are left, or the name has ended too early. -/
theorem Greedy.finished (greedy : Greedy pattern text p t mark) (past : text[t]? = none) :
    (pattern.drop p).all (· = '*') = true ↔ Matches (pattern.map globPiece) text := by
  have nothing : text.drop t = [] := List.drop_eq_nil_of_le (List.getElem?_eq_none_iff.mp past)
  have stars : (pattern.drop p).all (· = '*') = true ↔
      Matches ((pattern.drop p).map globPiece) (text.drop t) := by
    rw [nothing, matches_nil_text, List.forall_mem_map]
    simp [globPiece_eq_any]
  rw [stars]
  cases mark with
  | none => exact greedy.symm
  | some opened =>
      obtain ⟨segment, run, parts, whole, along, greedy⟩ := greedy
      rw [greedy, parts, whole, nothing, List.append_nil]
      constructor
      · intro held
        refine ⟨run, List.suffix_refl run, ?_⟩
        rw [← List.append_nil run]
        exact (matches_along along).mpr held
      · rintro ⟨later, suffix, held⟩
        obtain ⟨front, more, rfl, length, held⟩ := held.split along.rigid
        have size := length.trans along.length_eq
        have bound := suffix.length_le
        have none : more = [] := by
          rw [List.length_append] at bound
          exact List.eq_nil_of_length_eq_zero (by omega)
        exact none ▸ held

/-- The answer of the loop is whether the name matches. -/
theorem GlobRuns.sound {answer : Bool} (runs : GlobRuns pattern text p t mark answer)
    (greedy : Greedy pattern text p t mark) (within : Within pattern text p t mark) :
    answer = true ↔ Matches (pattern.map globPiece) text := by
  induction runs with
  | finished past => exact greedy.finished past
  | star here opens later ih =>
      have inside := (List.getElem?_eq_some_iff.mp opens).1
      exact ih (greedy.star opens) (within.star inside).1
  | @character p t mark current answer here plain fits later ih =>
      have there := (List.getElem?_eq_some_iff.mp here).1
      have inside : p < pattern.length := by
        rcases fits with one | same
        · exact (List.getElem?_eq_some_iff.mp one).1
        · exact (List.getElem?_eq_some_iff.mp same).1
      exact ih (greedy.character here plain fits) (within.character inside there).1
  | back here plain fails later ih =>
      have there := (List.getElem?_eq_some_iff.mp here).1
      have stuck := not_matches_of_misfit here plain fails
      exact ih (greedy.back (within.behind.trans_lt there) stuck) (within.back there).1
  | refused here plain fails =>
      have stuck := not_matches_of_misfit here plain fails
      rw [Greedy] at greedy
      simpa [greedy] using stuck

end Greedy

/-- A glob matches exactly the names that are one piece for each of its characters after another,
and the loop comes to its answer for every glob and every name. -/
theorem globMatches_iff (glob name : String) :
    GlobRuns glob.toList name.toList 0 0 none (globMatches glob name) ∧
      (globMatches glob name = true ↔ Matches (glob.toList.map globPiece) name.toList) :=
  have runs := globRuns_globMatches glob name
  ⟨runs, runs.sound Iff.rfl (.start _ _)⟩

end Sanshain.Guarantees
