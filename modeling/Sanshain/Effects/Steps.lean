import Mathlib.Tactic

namespace Sanshain.Effects

variable {State Action : Type}

/-- Every state that a sequence of actions goes through has the property. -/
def Throughout (step : State → Action → State) (property : State → Prop) :
    State → List Action → Prop
  | state, [] => property state
  | state, action :: rest => property state ∧ Throughout step property (step state action) rest

/-- Every action of a sequence meets the condition in the state it is taken in. -/
def EveryStep (step : State → Action → State) (condition : State → Action → Prop) :
    State → List Action → Prop
  | _, [] => True
  | state, action :: rest => condition state action ∧ EveryStep step condition (step state action) rest

variable {step : State → Action → State} {property : State → Prop}
  {condition : State → Action → Prop}

theorem Throughout.start {state : State} {actions : List Action}
    (always : Throughout step property state actions) : property state := by
  cases actions with
  | nil => exact always
  | cons action rest => exact always.1

/-- Where a condition on each action keeps an invariant that gives the property, and the property
is lost by every action that misses it, the two agree on all runs. -/
theorem throughout_iff_everyStep (invariant : State → Prop)
    (safe : ∀ state, invariant state → property state)
    (kept : ∀ state action, invariant state → condition state action → invariant (step state action))
    (broken : ∀ state action, invariant state → property (step state action) → condition state action)
    {state : State} (start : invariant state) (actions : List Action) :
    Throughout step property state actions ↔ EveryStep step condition state actions := by
  induction actions generalizing state with
  | nil => exact ⟨fun _ => trivial, fun _ => safe state start⟩
  | cons action rest ih =>
      constructor
      · rintro ⟨-, later⟩
        have met := broken state action start later.start
        exact ⟨met, (ih (kept state action start met)).mp later⟩
      · rintro ⟨met, later⟩
        exact ⟨safe state start, (ih (kept state action start met)).mpr later⟩

/-- A run takes its actions one after another. -/
def runSteps (step : State → Action → State) (state : State) (actions : List Action) : State :=
  actions.foldl step state

@[simp] theorem runSteps_nil (step : State → Action → State) (state : State) :
    runSteps step state [] = state := rfl

@[simp] theorem runSteps_cons (step : State → Action → State) (state : State) (action : Action)
    (rest : List Action) :
    runSteps step state (action :: rest) = runSteps step (step state action) rest := rfl

instance (step : State → Action → State) (condition : State → Action → Prop)
    [∀ state action, Decidable (condition state action)] :
    ∀ state actions, Decidable (EveryStep step condition state actions)
  | _, [] => .isTrue trivial
  | state, action :: rest =>
      have := instDecidableEveryStep step condition (step state action) rest
      inferInstanceAs (Decidable (condition state action ∧ EveryStep step condition _ rest))

namespace EveryStep

variable {allowed condition' : State → Action → Prop} {state : State} {actions : List Action}

theorem and (first : EveryStep step condition state actions)
    (second : EveryStep step condition' state actions) :
    EveryStep step (fun state action => condition state action ∧ condition' state action)
      state actions := by
  induction actions generalizing state with
  | nil => trivial
  | cons action rest ih => exact ⟨⟨first.1, second.1⟩, ih first.2 second.2⟩

/-- What follows from an invariant of the steps holds at every step. -/
theorem of_invariant (each : EveryStep step condition state actions) (invariant : State → Prop)
    (start : invariant state)
    (preserved : ∀ state action, invariant state → condition state action →
      invariant (step state action) ∧ condition' state action) :
    EveryStep step condition' state actions := by
  induction actions generalizing state with
  | nil => trivial
  | cons action rest ih =>
      obtain ⟨kept, met⟩ := preserved state action start each.1
      exact ⟨met, ih each.2 kept⟩

/-- Under an invariant that a condition on the steps preserves, a law of the steps holds along a
run exactly when the condition does. -/
theorem iff_of_invariant (each : EveryStep step allowed state actions) (invariant : State → Prop)
    (start : invariant state)
    (sound : ∀ state action, invariant state → allowed state action → condition state action →
      invariant (step state action) ∧ condition' state action)
    (exact : ∀ state action, invariant state → allowed state action → condition' state action →
      condition state action) :
    EveryStep step condition' state actions ↔ EveryStep step condition state actions := by
  constructor
  · intro lawful
    induction actions generalizing state with
    | nil => trivial
    | cons action rest ih =>
        have met := exact state action start each.1 lawful.1
        exact ⟨met, ih each.2 (sound state action start each.1 met).1 lawful.2⟩
  · intro met
    refine (each.and met).of_invariant invariant start fun state action kept both => ?_
    exact sound state action kept both.1 both.2

end EveryStep
end Sanshain.Effects
