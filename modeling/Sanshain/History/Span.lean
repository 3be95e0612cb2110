import Mathlib.Tactic

namespace Sanshain.History

/-- A half-open stretch of time that lasts until something closes it. -/
structure Span (Time : Type) where
  opened : Time
  closed : Option Time
  deriving DecidableEq, Repr

namespace Span

variable {Time : Type} {span : Span Time}

/-- The instants at which the stretch begins and ends. -/
def bounds (span : Span Time) : List Time := span.opened :: span.closed.toList

@[simp] theorem mem_bounds {bound : Time} :
    bound ∈ span.bounds ↔ bound = span.opened ∨ bound ∈ span.closed := by
  simp [bounds]

variable [LinearOrder Time] {first second : Time}

/-- The instants at which the stretch lasts. -/
def At (span : Span Time) (instant : Time) : Prop :=
  span.opened ≤ instant ∧ ∀ stop ∈ span.closed, instant < stop

instance (span : Span Time) (instant : Time) : Decidable (span.At instant) :=
  inferInstanceAs (Decidable (_ ∧ _))

/-- Two instants without a bound between them see the same stretches. -/
theorem at_iff_of_quiet (order : first ≤ second)
    (quiet : ∀ bound ∈ span.bounds, ¬ (first < bound ∧ bound ≤ second)) :
    span.At first ↔ span.At second := by
  have start := quiet span.opened (by simp)
  constructor
  · rintro ⟨begun, lasting⟩
    refine ⟨begun.trans order, fun stop among => ?_⟩
    have ended := quiet stop (by simp [among])
    have later := lasting stop among
    by_contra early
    exact ended ⟨later, not_lt.mp early⟩
  · rintro ⟨begun, lasting⟩
    refine ⟨?_, fun stop among => order.trans_lt (lasting stop among)⟩
    by_contra unborn
    exact start ⟨not_le.mp unborn, begun⟩

end Span

/-- The rows of a history whose stretch lasts at an instant. -/
def lasting {Row Time : Type} [LinearOrder Time] (span : Row → Span Time) (rows : List Row)
    (instant : Time) : List Row :=
  rows.filter fun row => (span row).At instant

section Lasting

variable {Row Time : Type} [LinearOrder Time] {span : Row → Span Time} {rows : List Row}

@[simp] theorem mem_lasting {row : Row} {instant : Time} :
    row ∈ lasting span rows instant ↔ row ∈ rows ∧ (span row).At instant := by
  simp [lasting]

/-- Without a bound of a row between two instants, the same rows last at both. -/
theorem lasting_eq_of_quiet {first second : Time} (order : first ≤ second)
    (quiet : ∀ row ∈ rows, ∀ bound ∈ (span row).bounds, ¬ (first < bound ∧ bound ≤ second)) :
    lasting span rows first = lasting span rows second := by
  apply List.filter_congr
  intro row among
  rw [decide_eq_decide]
  exact Span.at_iff_of_quiet order (quiet row among)

end Lasting
end Sanshain.History
