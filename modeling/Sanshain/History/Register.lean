import Sanshain.Effects.Steps

namespace Sanshain.History

open Sanshain.Effects

/-- A table of a system that takes steps: a step keeps, changes or drops every row on its own, and
adds at most one. -/
structure Register (State Action Row : Type) where
  step : State → Action → State
  rows : State → List Row
  fate : State → Action → Row → Option Row
  added : State → Action → Option Row
  law : ∀ state action, rows (step state action) =
    (rows state).filterMap (fate state action) ++ (added state action).toList

namespace Register

variable {State Action Row : Type} (register : Register State Action Row)

/-- The state after a run. -/
abbrev after (state : State) (actions : List Action) : State := runSteps register.step state actions

/-- What becomes of one row over a run. -/
def survives : State → List Action → Row → Option Row
  | _, [], row => some row
  | state, action :: rest, row =>
      (register.fate state action row).bind (survives (register.step state action) rest)

/-- A row that was added on the way, and what has become of it since. -/
def AddedOnTheWay (state : State) (actions : List Action) (row : Row) : Prop :=
  ∃ earlier action later start, actions = earlier ++ action :: later ∧
    register.added (register.after state earlier) action = some start ∧
    register.survives (register.after state (earlier ++ [action])) later start = some row

variable {register} {state : State}

theorem mem_step {action : Action} {row : Row} :
    row ∈ register.rows (register.step state action) ↔
      (∃ before ∈ register.rows state, register.fate state action before = some row) ∨
        register.added state action = some row := by
  rw [register.law, List.mem_append, List.mem_filterMap, Option.mem_toList]

/-- What is added on the way is added by the first step or after it. -/
theorem addedOnTheWay_cons {action : Action} {rest : List Action} {row : Row} :
    register.AddedOnTheWay state (action :: rest) row ↔
      (∃ start, register.added state action = some start ∧
        register.survives (register.step state action) rest start = some row) ∨
        register.AddedOnTheWay (register.step state action) rest row := by
  constructor
  · rintro ⟨earlier, other, later, start, whole, added, survived⟩
    cases earlier with
    | nil =>
        cases whole
        exact .inl ⟨start, added, survived⟩
    | cons first earlier =>
        cases whole
        exact .inr ⟨earlier, other, later, start, rfl, added, survived⟩
  · rintro (⟨start, added, survived⟩ | ⟨earlier, other, later, start, rfl, added, survived⟩)
    · exact ⟨[], action, rest, start, rfl, added, survived⟩
    · exact ⟨action :: earlier, other, later, start, rfl, added, survived⟩

/-- The rows after a run: those of its start and those that were added, as far as they survive. -/
theorem mem_after {actions : List Action} {row : Row} :
    row ∈ register.rows (register.after state actions) ↔
      (∃ start ∈ register.rows state, register.survives state actions start = some row) ∨
        register.AddedOnTheWay state actions row := by
  induction actions generalizing state with
  | nil =>
      constructor
      · intro held
        exact .inl ⟨row, held, rfl⟩
      · rintro (⟨start, held, survived⟩ | ⟨earlier, other, later, start, whole, -, -⟩)
        · cases survived
          exact held
        · cases earlier <;> cases whole
  | cons action rest ih =>
      refine ih.trans ?_
      rw [addedOnTheWay_cons]
      constructor
      · rintro (⟨start, held, survived⟩ | later)
        · obtain ⟨before, there, kept⟩ | added := mem_step.mp held
          · exact .inl ⟨before, there, by rw [survives, kept]; exact survived⟩
          · exact .inr (.inl ⟨start, added, survived⟩)
        · exact .inr (.inr later)
      · rintro (⟨before, there, survived⟩ | ⟨start, added, survived⟩ | later)
        · obtain ⟨start, kept, survived⟩ := Option.bind_eq_some_iff.mp survived
          exact .inl ⟨start, mem_step.mpr (.inl ⟨before, there, kept⟩), survived⟩
        · exact .inl ⟨start, mem_step.mpr (.inr added), survived⟩
        · exact .inr later

/-- The rows after a run from an empty table have all been added on the way. -/
theorem mem_after_empty (register : Register State Action Row) {state : State}
    (empty : register.rows state = []) {actions : List Action} {row : Row} :
    row ∈ register.rows (register.after state actions) ↔ register.AddedOnTheWay state actions row := by
  refine mem_after.trans (or_iff_right ?_)
  rintro ⟨start, held, -⟩
  rw [empty] at held
  cases held

/-- What a row has at the end and no step gives to a row, it had at its start. -/
theorem survives_reflects {feature : Row → Prop}
    (kept : ∀ state action row after, register.fate state action row = some after →
      feature after → feature row)
    {actions : List Action} {row after : Row} (survived : register.survives state actions row = some after)
    (has : feature after) : feature row := by
  induction actions generalizing state row with
  | nil =>
      cases survived
      exact has
  | cons action rest ih =>
      obtain ⟨next, stayed, survived⟩ := Option.bind_eq_some_iff.mp survived
      exact kept state action row next stayed (ih survived)

/-- Where no row has a feature and none is added with it, none ever has it. -/
theorem never_again (register : Register State Action Row) (feature : Row → Prop)
    (kept : ∀ state action row after, register.fate state action row = some after →
      feature after → feature row)
    {actions : List Action} (none_now : ∀ row ∈ register.rows state, ¬ feature row)
    (none_added : ∀ state, ∀ action ∈ actions, ∀ start, register.added state action = some start →
      ¬ feature start)
    {row : Row} (held : row ∈ register.rows (register.after state actions)) : ¬ feature row := by
  intro has
  obtain ⟨start, there, survived⟩ | ⟨earlier, action, later, start, rfl, added, survived⟩ :=
    mem_after.mp held
  · exact none_now start there (survives_reflects kept survived has)
  · exact none_added _ action (by simp) start added (survives_reflects kept survived has)

section Keys

variable {Key : Type} {key : Row → Key}

/-- Rows that keep their key keep its place among the others. -/
theorem keys_sublist {fate : Row → Option Row}
    (kept : ∀ row after, fate row = some after → key after = key row) (rows : List Row) :
    ((rows.filterMap fate).map key).Sublist (rows.map key) := by
  induction rows with
  | nil => exact List.Sublist.slnil
  | cons row rest ih =>
      cases stays : fate row with
      | none =>
          rw [List.filterMap_cons_none stays]
          exact ih.cons _
      | some after =>
          rw [List.filterMap_cons_some stays, List.map_cons, List.map_cons, kept row after stays]
          exact ih.cons_cons _

/-- A table with one row a key stays one, where only rows with a new key are added. -/
theorem distinct_step
    (kept : ∀ state action row after, register.fate state action row = some after → key after = key row)
    (fresh : ∀ state action start, register.added state action = some start →
      key start ∉ (register.rows state).map key)
    (distinct : ((register.rows state).map key).Nodup) (action : Action) :
    ((register.rows (register.step state action)).map key).Nodup := by
  have sublist := keys_sublist (kept state action) (register.rows state)
  rw [register.law, List.map_append]
  cases added : register.added state action with
  | none => simpa using distinct.sublist sublist
  | some start =>
      refine List.nodup_append'.mpr ⟨distinct.sublist sublist, List.nodup_singleton _, ?_⟩
      intro held there same
      rw [Option.toList_some, List.map_singleton, List.mem_singleton] at same
      subst same
      exact fresh state action start added (sublist.subset there)

end Keys

end Register
end Sanshain.History
